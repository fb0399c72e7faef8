import Faultline.MySQLWire
import Faultline.Process
import Faultline.Recorder
import Faultline.ServiceRuns
import Faultline.Sink

/-! The command loop of a MySQL session. Packets arrive in two lists; a list that is
exhausted stands for a cancelled session, since the loop ends at the first packet it
waits for in vain. Cancellation, deadlines and read errors are of this kind. -/
namespace Faultline.MySQL

inductive SessionError where
  | cancelled
  | protocol
  | write
  | crashed
  deriving DecidableEq

/-- The response side of one command. `taken` are the packets received in it so far. -/
structure Cycle where
  back : List Packet
  client : Sink
  seq : UInt8
  taken : List Packet
  deriving DecidableEq

/-- Takes the next packet off the channel, which then holds `back`. -/
def accept (p : Packet) (back : List Packet) : EStateM SessionError Cycle Unit := do
  let x ← get
  modify (fun x => { x with back := back, taken := x.taken ++ [p] })
  if p.seq ≠ x.seq then
    throw .protocol
  modify (fun x => { x with seq := x.seq + 1 })

def read : EStateM SessionError Cycle Packet := do
  match (← get).back with
  | [] => throw .cancelled
  | p :: back =>
    accept p back
    return p

def forward (p : Packet) : EStateM SessionError Cycle Unit := do
  let x ← get
  modify (fun x => { x with client := (x.client.write p.bytes).2 })
  unless (x.client.write p.bytes).1 do
    throw .write

/-- The loop of `definitions`. -/
def definitionPackets : ℕ → EStateM SessionError Cycle Unit
  | 0 => pure ()
  | n+1 => do
    let p ← read
    if p.code = 0xff then
      throw .protocol
    forward p
    definitionPackets n

/-- `modern` says that `DEPRECATE_EOF` was negotiated. -/
def definitions (modern : Bool) (n : ℕ) : EStateM SessionError Cycle Unit := do
  if 4096 < n then
    throw .protocol
  definitionPackets n
  if 0 < n ∧ ¬ modern then
    let p ← read
    if eofStatus p.body false = none then
      throw .protocol
    forward p

/-- The loop of `result` over the packets that are left on the channel. The last
component is the error of forwarding the packet that ended the rows. -/
def rows (modern : Bool) : List Packet → EStateM SessionError Cycle (ℕ × Bool × Except SessionError Unit)
  | [] => throw .cancelled
  | p :: back => do
    accept p back
    if p.code = 0xff then
      return (0, false, ← captureError (forward p))
    match eofStatus p.body modern with
    | some flags =>
      if moreResults flags then
        throw .protocol
      return (flags, true, ← captureError (forward p))
    | none =>
      forward p
      rows modern back

def result (modern : Bool) (first : Packet) :
    EStateM SessionError Cycle (ℕ × Bool × Except SessionError Unit) := do
  match lenenc first.body with
  | none => throw .protocol
  | some (n, _) =>
    if n = 0 ∨ 4096 < n then
      throw .protocol
    forward first
    definitions modern n
    rows modern (← get).back

/-- What the session does with a command packet before it starts a cycle. -/
inductive Admission where
  | quit
  | refuse
  | serve (kind : Statement)
  deriving DecidableEq

/-- The commands are: 1 quit, 2 init database, 3 query, 0x0e ping, 0x16 prepare,
0x17 execute, 0x19 close statement, 0x1a reset statement, 0x1f reset connection. -/
def admission (statements : OrdMap ℕ Statement) (p : Packet) : Admission :=
  if p.seq ≠ 0 then .refuse
  else if p.code = 1 then .quit
  else if p.code = 3 ∨ p.code = 0x16 then
    if classify p.body.tail = .unsupported then .refuse
    else if p.code = 0x16 ∧ 128 ≤ statements.size then .refuse
    else .serve (classify p.body.tail)
  else if p.code = 0x17 then
    if p.body.length < 10 ∨ p.body[5]? ≠ some 0 ∨ uint32At p.body 6 ≠ 1 then .refuse
    else match statements.get? (uint32At p.body 1) with
      | none => .refuse
      | some kind => .serve kind
  else if p.code = 0x19 ∨ p.code = 0x1a then
    if p.body.length ≠ 5 then .refuse else .serve .ordinary
  else if p.code = 2 ∨ p.code = 0x0e ∨ p.code = 0x1f then .serve .ordinary
  else .refuse

structure Endpoint where
  lib : Library
  managed : Bool
  proxyID : String
  modern : Bool

/-- What happens around one command: the calls of other clients of the control service
before the snapshot is acquired and before the decision, whether the timer of a fault
fires, and the values of the clock and the random source. -/
structure Surroundings where
  before : List ServiceOp
  during : List ServiceOp
  elapsed : Bool
  flowID : String
  startedAt : ℕ
  finishedAt : ℕ

/-- The variables of `exchange`, the service and the recorded events. `decisions` are
the results of `Decide` in the current cycle. -/
structure Session where
  statements : OrdMap ℕ Statement
  transaction : Bool
  cycle : Cycle
  upstream : Sink
  service : Service
  event : Event
  outcome : String
  events : List Event
  decisions : List Decision
  closed : Bool

def onCycle {α : Type} (m : EStateM SessionError Cycle α) : EStateM SessionError Session α :=
  zoom Session.cycle (fun s x => { s with cycle := x }) m

def record (e : Event) : EStateM SessionError Session Unit :=
  modify (fun s => { s with events := s.events ++ [e] })

def setEvent (e : Event) : EStateM SessionError Session Unit := modify (fun s => { s with event := e })

def setTransaction (transaction : Bool) : EStateM SessionError Session Unit :=
  modify (fun s => { s with transaction := transaction })

def writeUpstream (p : Packet) : EStateM SessionError Session Unit := do
  let s ← get
  modify (fun s => { s with upstream := (s.upstream.write p.bytes).2 })
  unless (s.upstream.write p.bytes).1 do
    throw .write

/-- Control calls of others, and `Decide` on the snapshot. -/
def decide (e : Endpoint) (w : Surroundings) (snap : Snapshot) :
    EStateM SessionError Session Decision := do
  let s ← get
  let r := (runService e.lib e.managed s.service w.during).2.decide e.lib snap e.proxyID ⟨[], [], [], []⟩
  modify (fun s => { s with service := r.2, decisions := s.decisions ++ [decisionOf r.1] })
  return decisionOf r.1

/-- `commit`: whether the acknowledgement may be forwarded. -/
def commit (e : Endpoint) (w : Surroundings) (snap : Snapshot) : EStateM SessionError Session Bool := do
  let d ← decide e w snap
  let s ← get
  let event := { s.event.withDecision d with commitConfirmed := true }
  setEvent event
  record event
  if !d.selected then
    return true
  setEvent event.asApplied
  record event.asApplied
  match applyFault w.elapsed d.fault with
  | none => throw .crashed
  | some forwarded => return forwarded

def prepared (modern : Bool) (kind : Statement) (first : Packet) :
    EStateM SessionError Session Unit := do
  if first.body.length ≠ 12 ∨ first.code ≠ 0 then
    throw .protocol
  let id := uint32At first.body 1
  if ((← get).statements.get? id).isSome then
    throw .protocol
  onCycle (forward first)
  onCycle (definitions modern (uint16At first.body 7))
  onCycle (definitions modern (uint16At first.body 5))
  modify (fun s => { s with statements := s.statements.insert id kind })

def acknowledged (e : Endpoint) (w : Surroundings) (snap : Snapshot) (command : Packet)
    (kind : Statement) (first : Packet) : EStateM SessionError Session Unit := do
  match okStatus first.body with
  | none => throw .protocol
  | some status =>
    if moreResults status then
      throw .protocol
    let confirmed := kind = .commit ∧ (← get).transaction ∧ ¬ inTrans status
    if ¬ inTrans status ∨ kind = .rollback then
      setTransaction false
    if kind = .begin then
      setTransaction (inTrans status)
    if command.code = 0x1f then
      modify (fun s => { s with transaction := false, statements := ∅ })
    if confirmed then
      unless ← commit e w snap do
        modify (fun s => { s with outcome := "commit_ack_lost" })
        throw .protocol
    onCycle (forward first)

def resultSet (modern : Bool) (first : Packet) : EStateM SessionError Session Unit := do
  match ← captureError (onCycle (result modern first)) with
  | .error e =>
    setTransaction false
    throw e
  | .ok (status, ok, err) =>
    if !ok ∨ ¬ inTrans status then
      setTransaction false
    match err with
    | .error e => throw e
    | .ok () => return ()

def respond (e : Endpoint) (w : Surroundings) (snap : Snapshot) (command : Packet) (kind : Statement)
    (first : Packet) : EStateM SessionError Session Unit := do
  if first.code = 0xff then
    modify (fun s => { s with transaction := false, outcome := "upstream_error" })
    onCycle (forward first)
  else if command.code = 0x16 then
    prepared e.modern kind first
  else if first.code = 0xfb then
    throw .protocol
  else if first.code = 0 then
    acknowledged e w snap command kind first
  else
    resultSet e.modern first

/-- The function that `exchange` calls for one command. -/
def serveCommand (e : Endpoint) (w : Surroundings) (snap : Snapshot) (command : Packet)
    (kind : Statement) : EStateM SessionError Session Unit := do
  writeUpstream command
  if command.code = 0x19 then
    modify (fun s => { s with statements := s.statements.erase (uint32At command.body 1) })
  else
    let first ← onCycle read
    respond e w snap command kind first

/-- The record of a cycle: the command, the packets received in it, the decisions
taken in it and the error that ended it. -/
structure CycleRecord where
  command : Packet
  taken : List Packet
  decisions : List Decision
  error : Option SessionError

def Session.begin (e : Endpoint) (w : Surroundings) (s : Session) : Session :=
  let service := (runService e.lib e.managed s.service w.before).2
  let event := Event.started service.acquire.info w.flowID e.proxyID "mysql" w.startedAt
  { s with
    service := service
    event := event
    events := s.events ++ [event]
    outcome := "forwarded"
    decisions := []
    cycle := { s.cycle with seq := 1, taken := [] } }

def Session.finish (w : Surroundings) (s : Session) (error : Option SessionError) : Session :=
  let outcome := if error.isSome ∧ s.outcome = "forwarded" then "connection_closed" else s.outcome
  let event := { s.event with type := .flowFinished, outcome := outcome, finishedAt := w.finishedAt }
  { s with
    event := event
    events := if error = some .crashed then s.events else s.events ++ [event]
    closed := error.isSome }

def exchangeStep (e : Endpoint) (s : Session) (input : Packet × Surroundings) :
    Option CycleRecord × Session :=
  if s.closed then (none, s)
  else match admission s.statements input.1 with
    | .quit => (none, { s with closed := true })
    | .refuse =>
      (none, { s with
        closed := true
        cycle := { s.cycle with client := (s.cycle.client.write (rejection 1).bytes).2 } })
    | .serve kind =>
      let start := s.begin e input.2
      let r := serveCommand e input.2 start.service.acquire input.1 kind start
      let after := finalState r
      (some ⟨input.1, after.cycle.taken, after.decisions, stopError r⟩, after.finish input.2 (stopError r))

/-- The loop of `exchange` over the packets of the client. -/
def exchange (e : Endpoint) : Session → List (Packet × Surroundings) →
    List (Option CycleRecord) × Session := run (exchangeStep e)

def Session.start (service : Service) (client upstream : Sink) (back : List Packet) : Session where
  statements := ∅
  transaction := false
  cycle := ⟨back, client, 1, []⟩
  upstream := upstream
  service := service
  event := .zero
  outcome := ""
  events := []
  decisions := []
  closed := false

end Faultline.MySQL
