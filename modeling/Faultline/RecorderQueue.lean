import Faultline.Machine
import Faultline.Recorder

/-! The recorder: callers of `Record` update the counters and fill a bounded queue under a
mutex, one writer empties the queue without it, and `Close` ends both. Each input is one step
of one goroutine, so a list of inputs is an interleaving. -/
namespace Faultline.Recording

structure Counters where
  total : UInt64
  eligible : UInt64
  selected : UInt64
  applied : UInt64
  active : UInt64
  activeFaults : UInt64
  dropped : UInt64
  writeErrors : UInt64
  written : UInt64
  pending : UInt64
  deriving DecidableEq

def Counters.zero : Counters := ⟨0, 0, 0, 0, 0, 0, 0, 0, 0, 0⟩

/-- The switch of `Record` over the type of the event. -/
def Counters.count (c : Counters) (e : Event) : Counters :=
  match e.type with
  | .flowStarted => { c with total := c.total + 1, active := c.active + 1 }
  | .decision =>
    { c with
      eligible := if e.ruleID ≠ "" then c.eligible + 1 else c.eligible
      selected := if e.selected then c.selected + 1 else c.selected }
  | .faultApplied => { c with applied := c.applied + 1, activeFaults := c.activeFaults + 1 }
  | .flowFinished =>
    { c with
      active := c.active - 1
      activeFaults := if e.applied then c.activeFaults - 1 else c.activeFaults }
  | _ => c

/-- The outcomes that are counted: at most 32 different ones. -/
def countOutcome (outcomes : OrdMap String UInt64) (e : Event) : OrdMap String UInt64 :=
  if e.type = .flowFinished ∧ (outcomes.contains e.outcome ∨ outcomes.size < 32) then
    outcomes.insert e.outcome ((outcomes.get? e.outcome).getD 0 + 1)
  else outcomes

/-- Where the call of `Record` is that holds the mutex. -/
inductive RecordAt where
  | count
  | send
  | increment
  | drop
  deriving DecidableEq

inductive Holder where
  | free
  | record (e : Event) (stage : RecordAt)
  | writer
  | closer (id : ℕ)
  deriving DecidableEq

/-- Where the writer is, with the event in its hands. After the encoding it waits for the
mutex, and holds it next. -/
inductive WriterAt where
  | receive
  | got (e : Event)
  | encoded (e : Event) (failed : Bool)
  | ended (abandoned : Option Event)
  deriving DecidableEq

/-- Where a call of `Close` is; at its end, whether it returned nil. -/
inductive CloserAt where
  | idle
  | entering
  | closing
  | waiting
  | counting
  | returned (ok : Bool)
  deriving DecidableEq

/-- The recorder and its goroutines. The last four fields are what an observer sees: the
events of the calls so far, those that were queued, those that were written, and whether
somebody has sent on a closed channel. -/
structure Recorder where
  counts : Counters
  outcomes : OrdMap String UInt64
  queue : List Event
  closed : Bool
  queueClosed : Bool
  aborted : Bool
  done : Bool
  holder : Holder
  writer : WriterAt
  closers : ℕ → CloserAt
  calls : List Event
  accepted : List Event
  output : List Event
  panicked : Bool

/-- `New`. -/
def Recorder.new : Recorder where
  counts := .zero
  outcomes := ∅
  queue := []
  closed := false
  queueClosed := false
  aborted := false
  done := false
  holder := .free
  writer := .receive
  closers _ := .idle
  calls := []
  accepted := []
  output := []
  panicked := false

/-- The non-blocking send of `Record`. A queue without capacity only takes an event when the
writer is ready to receive it. -/
def sendStep (capacity : ℕ) (r : Recorder) (e : Event) (ready : Bool) : Recorder :=
  if r.queueClosed then { r with panicked := true }
  else if r.queue.length < capacity then
    { r with queue := r.queue ++ [e], accepted := r.accepted ++ [e], holder := .record e .increment }
  else if capacity = 0 ∧ r.writer = .receive ∧ ready then
    { r with writer := .got e, accepted := r.accepted ++ [e], holder := .record e .increment }
  else { r with holder := .record e .drop }

def recordStep (capacity : ℕ) (r : Recorder) (e : Event) (ready : Bool) : RecordAt → Recorder
  | .count =>
    { r with
      counts := r.counts.count e
      outcomes := countOutcome r.outcomes e
      holder := .record e (if r.closed then .drop else .send) }
  | .send => sendStep capacity r e ready
  | .increment =>
    { r with counts := { r.counts with pending := r.counts.pending + 1 }, holder := .free }
  | .drop => { r with counts := { r.counts with dropped := r.counts.dropped + 1 }, holder := .free }

def writeStep (r : Recorder) (failed : Bool) : Recorder :=
  match r.writer with
  | .receive =>
    match r.queue with
    | e :: rest => { r with queue := rest, writer := .got e }
    | [] => if r.queueClosed then { r with writer := .ended none, done := true } else r
  | .got e =>
    if r.aborted then { r with writer := .ended (some e), done := true }
    else { r with writer := .encoded e failed, output := if failed then r.output else r.output ++ [e] }
  | .encoded _ failed =>
    if r.holder = .free then { r with holder := .writer }
    else if r.holder = .writer then
      let c := { r.counts with pending := r.counts.pending - 1 }
      { r with
        counts := if failed then { c with dropped := c.dropped + 1, writeErrors := c.writeErrors + 1 }
          else { c with written := c.written + 1 }
        holder := .free
        writer := .receive }
    else r
  | .ended _ => r

def Recorder.closeAt (r : Recorder) (id : ℕ) (stage : CloserAt) : Recorder :=
  { r with closers := Function.update r.closers id stage }

/-- One step of a call of `Close`; `expired` says that its select takes the context. -/
def closeStep (r : Recorder) (id : ℕ) (expired : Bool) : Recorder :=
  match r.closers id with
  | .idle => if r.holder = .free then { r.closeAt id .entering with holder := .closer id } else r
  | .entering =>
    if r.closed then { r.closeAt id .waiting with holder := .free }
    else { r.closeAt id .closing with closed := true }
  | .closing => { r.closeAt id .waiting with queueClosed := true, holder := .free }
  | .waiting =>
    if expired then { r.closeAt id (.returned false) with aborted := true }
    else if r.done then r.closeAt id .counting
    else r
  | .counting => if r.holder = .free then r.closeAt id (.returned (r.counts.pending = 0)) else r
  | .returned _ => r

inductive RecorderInput where
  | call (e : Event)
  | record (ready : Bool)
  | write (failed : Bool)
  | close (id : ℕ) (expired : Bool)

def recorderStep (capacity : ℕ) (r : Recorder) : RecorderInput → Recorder
  | .call e =>
    if r.holder = .free then { r with holder := .record e .count, calls := r.calls ++ [e] } else r
  | .record ready =>
    match r.holder with
    | .record e stage => recordStep capacity r e ready stage
    | _ => r
  | .write failed => writeStep r failed
  | .close id expired => closeStep r id expired

def recorder (capacity : ℕ) (inputs : List RecorderInput) : Recorder :=
  (run (fun r i => ((), recorderStep capacity r i)) Recorder.new inputs).2

end Faultline.Recording
