import Faultline.PostgreSQLWire
import Faultline.Recorder
import Faultline.ServiceRuns
import Faultline.Sink

/-! The exchange loop of a PostgreSQL session. Each iteration takes one frame from
either side or ends the session; between iterations others call the control service.
The inputs of a run say which of these happens next. -/
namespace Faultline.PostgreSQL

def frontKinds : Bytes := bytesOf "QPBDEHCS"

def backKinds : Bytes := bytesOf "123nTsDCIENSAZt"

/-- What the clock and the random source return at an input, and whether the timer of a
fault fires before the session is cancelled. -/
structure Moment where
  now : ℕ
  flowID : String
  elapsed : Bool

inductive Input where
  | done (m : Moment)
  | front (f : Frame) (m : Moment)
  | back (f : Frame) (m : Moment)
  | control (op : ServiceOp)

structure Endpoint where
  lib : Library
  managed : Bool
  proxyID : String

/-- The variables of `exchange`, the control service, the connections and the events. -/
structure Session where
  service : Service
  snap : Option Snapshot
  event : Event
  active : Bool
  awaiting : Bool
  transaction : Bool
  executed : Bool
  decided : Bool
  outcome : String
  client : Sink
  upstream : Sink
  events : List Event
  closed : Bool

def Session.start (service : Service) (client upstream : Sink) : Session where
  service := service
  snap := none
  event := .zero
  active := false
  awaiting := false
  transaction := false
  executed := false
  decided := false
  outcome := "forwarded"
  client := client
  upstream := upstream
  events := []
  closed := false

def Session.record (s : Session) (e : Event) : Session :=
  { s with event := e, events := s.events ++ [e] }

def Session.finish (s : Session) (outcome : String) (m : Moment) : Session :=
  if !s.active then s
  else
    { s.record { s.event with
        type := .flowFinished
        outcome := outcome
        finishedAt := m.now
        notReached := s.event.selected && !s.event.reached } with
      active := false
      snap := none }

section Finish
variable (s : Session) (outcome : String) (m : Moment)

@[simp] theorem finish_active : (s.finish outcome m).active = false := by
  unfold Session.finish
  cases hactive : s.active <;> simp [hactive]

@[simp] theorem finish_awaiting : (s.finish outcome m).awaiting = s.awaiting := by
  unfold Session.finish
  split_ifs <;> rfl

@[simp] theorem finish_transaction : (s.finish outcome m).transaction = s.transaction := by
  unfold Session.finish
  split_ifs <;> rfl

@[simp] theorem finish_client : (s.finish outcome m).client = s.client := by
  unfold Session.finish
  split_ifs <;> rfl

@[simp] theorem finish_upstream : (s.finish outcome m).upstream = s.upstream := by
  unfold Session.finish
  split_ifs <;> rfl

@[simp] theorem finish_closed : (s.finish outcome m).closed = s.closed := by
  unfold Session.finish
  split_ifs <;> rfl

end Finish

def Session.close (s : Session) (m : Moment) : Session :=
  { s.finish "connection_closed" m with closed := true }

def Session.refuse (s : Session) (m : Moment) : Session :=
  ({ s with client := (s.client.write rejection.bytes).2 } : Session).close m

def Session.toClient (s : Session) (f : Frame) (m : Moment) : Session :=
  let s' := { s with client := (s.client.write f.bytes).2 }
  if (s.client.write f.bytes).1 then s' else s'.close m

def Session.toUpstream (s : Session) (f : Frame) (m : Moment) : Session :=
  let s' := { s with upstream := (s.upstream.write f.bytes).2 }
  if (s.upstream.write f.bytes).1 then s' else s'.close m

def Session.startCycle (e : Endpoint) (s : Session) (m : Moment) : Session :=
  { s with
    snap := some s.service.acquire
    active := true
    executed := false
    decided := false
    outcome := "forwarded" }.record
    (Event.started s.service.acquire.info m.flowID e.proxyID "postgresql" m.now)

def cycleStep (s : Session) (f : Frame) (m : Moment) : Session :=
  if f.kind = 'E'.toUInt8 ∧ s.executed then s.refuse m
  else
    { s with
      executed := s.executed || f.kind = 'E'.toUInt8
      awaiting := f.kind = 'Q'.toUInt8 || f.kind = 'S'.toUInt8 }.toUpstream f m

def frontStep (e : Endpoint) (s : Session) (f : Frame) (m : Moment) : Session :=
  if f.kind = 'X'.toUInt8 then s.close m
  else if f.kind ∉ frontKinds ∨ s.awaiting then s.refuse m
  else if s.active then cycleStep s f m
  else cycleStep (s.startCycle e m) f m

/-- `Decide` on the snapshot of the cycle, and the event of the decision. There is a
snapshot in every active cycle. -/
def Session.decide (e : Endpoint) (s : Session) : Decision × Session :=
  match s.snap with
  | none => (noDecision "", s)
  | some snap =>
    let r := s.service.decide e.lib snap e.proxyID ⟨[], [], [], []⟩
    (decisionOf r.1, { s with service := r.2, transaction := false, decided := true }.record
      { s.event.withDecision (decisionOf r.1) with commitConfirmed := true })

def commitStep (e : Endpoint) (s : Session) (f : Frame) (m : Moment) : Option Decision × Session :=
  let (d, s) := s.decide e
  if d.selected then
    let s := s.record s.event.asApplied
    match applyFault m.elapsed d.fault with
    | some true => (some d, s.toClient f m)
    | some false => (some d, { s.finish "commit_ack_lost" m with closed := true })
    | none => (some d, s.close m)
  else (some d, s.toClient f m)

def readyStep (s : Session) (f : Frame) (m : Moment) : Session :=
  if f.body.length ≠ 1 ∨ f.body.headD 0 ∉ bytesOf "ITE" then s.refuse m
  else
    let s' := { s with
      transaction := f.body.headD 0 ≠ 'I'.toUInt8
      awaiting := false
      client := (s.client.write f.bytes).2 }
    if (s.client.write f.bytes).1 then s'.finish s'.outcome m else s'.close m

def backStep (e : Endpoint) (s : Session) (f : Frame) (m : Moment) : Option Decision × Session :=
  if f.kind ∉ backKinds then (none, s.refuse m)
  else
    let s := if f.kind = 'E'.toUInt8 then { s with outcome := "upstream_error" } else s
    if f.kind = 'C'.toUInt8 then
      if f.body = bytesOf "BEGIN\x00" then (none, { s with transaction := true }.toClient f m)
      else if f.body = bytesOf "ROLLBACK\x00" then (none, { s with transaction := false }.toClient f m)
      else if f.body = bytesOf "COMMIT\x00" ∧ s.transaction ∧ s.active ∧ !s.decided then
        commitStep e s f m
      else (none, s.toClient f m)
    else if f.kind = 'Z'.toUInt8 then (none, readyStep s f m)
    else (none, s.toClient f m)

def exchangeStep (e : Endpoint) (s : Session) : Input → Option Decision × Session
  | .control op => (none, { s with service := (serviceStep e.lib e.managed s.service op).2 })
  | .done m => if s.closed then (none, s) else (none, s.close m)
  | .front f m => if s.closed then (none, s) else (none, frontStep e s f m)
  | .back f m => if s.closed then (none, s) else backStep e s f m

/-- The decisions of a run, at the inputs where they are taken, and the session after it. -/
def exchange (e : Endpoint) : Session → List Input → List (Option Decision) × Session :=
  run (exchangeStep e)

end Faultline.PostgreSQL
