import Faultline.Machine
import Faultline.Recorder

/-! One TCP connection: the wait before the dial, the two pumps and the fault that they
share. Each input is one step of one of the goroutines, of a timer or of the context, so
a list of inputs is an interleaving; what the network answers is part of the input. -/
namespace Faultline.TCP

inductive Direction where
  | clientToUpstream
  | upstreamToClient
  deriving DecidableEq

def Direction.name : Direction → String
  | .clientToUpstream => "client_to_upstream"
  | .upstreamToClient => "upstream_to_client"

/-- What a call that depends on the network or on a timer returns: how many bytes, and
whether there is an error, which may be that of a deadline. -/
structure Answer where
  size : ℕ
  fails : Bool
  timeout : Bool

/-- Where a pump is. `last` says that its last read returned an error. -/
inductive Stage where
  | loop
  | held
  | read
  | check (last : Bool)
  | cut (last : Bool)
  | pace (last : Bool) (chunk : ℕ)
  | write (last : Bool) (chunk : ℕ)
  | add (last : Bool) (written : ℕ) (failed : Bool)
  | wrote (last : Bool) (failed : Bool)
  | tail (last : Bool)
  | done
  deriving DecidableEq

/-- A pump: what its source still has, first the prefetched bytes; what it has read and
not yet written; the bytes that were written and their recorded number. -/
structure Pump where
  ahead : Bytes
  rest : Bytes
  payload : Bytes
  written : Bytes
  count : ℕ
  stage : Stage
  deriving DecidableEq

def Pump.start (rest : Bytes) : Pump := ⟨[], rest, [], [], 0, .loop⟩

inductive Phase where
  | waiting (buffer : Bytes)
  | full (buffer : Bytes)
  | dialing (prefetched : Bytes)
  | forwarding
  | over (outcome : String)
  deriving DecidableEq

structure Relay where
  decision : Decision
  event : Event
  phase : Phase
  elapsed : Bool
  cancelled : Bool
  closed : Bool
  active : Bool
  applied : Bool
  pump : Direction → Pump
  events : List Event

/-- The fault that the pumps see: nil unless a rule other than `delay_connect` is selected. -/
def Relay.fault (s : Relay) : Option Fault :=
  if !s.decision.selected || s.decision.fault.action = "delay_connect" then none
  else some s.decision.fault

def Relay.record (s : Relay) (e : Event) : Relay := { s with events := s.events ++ [e] }

/-- `onApply`: the fault counts as applied. -/
def Relay.onApply (s : Relay) : Relay := { s with applied := true }.record s.event.asApplied

/-- `activate`, which acts once and not after `stop`. -/
def Relay.activate (s : Relay) (f : Fault) : Relay :=
  if s.active then s
  else { s.onApply with active := true, closed := s.closed || f.action = "close_connection" }

/-- `reachedBytes` after `count` bytes were written in a direction. -/
def Relay.reachedBytes (s : Relay) (d : Direction) (count : ℕ) : Relay :=
  match s.fault with
  | none => s
  | some f =>
    match f.afterBytes with
    | none => s
    | some after =>
      if f.triggerDirection = d.name ∧ after.toInt ≤ count then s.activate f else s

def Relay.blocked (s : Relay) (d : Direction) : Bool :=
  match s.fault with
  | none => false
  | some f => s.active && f.action = "hold" && f.direction = d.name

/-- Whether `pace` waits for its timer. -/
def Relay.paced (s : Relay) (d : Direction) : Bool :=
  match s.fault with
  | none => false
  | some f => s.active && f.action = "throttle" && f.direction = d.name

/-- The part of `n` bytes up to the byte trigger. -/
def Relay.untilTrigger (s : Relay) (d : Direction) (count n : ℕ) : ℕ :=
  match s.fault with
  | none => n
  | some f =>
    match f.afterBytes with
    | none => n
    | some after =>
      if f.triggerDirection = d.name ∧ s.active = false then
        let remaining := after.toInt - count
        if 0 < remaining ∧ remaining < n then remaining.toNat else n
      else n

def Relay.chunk (s : Relay) (d : Direction) (p : Pump) : ℕ :=
  let n := s.untilTrigger d p.count p.payload.length
  if 1024 < n ∧ s.fault.any (fun f => f.action = "throttle") then 1024 else n

def bufferSize : ℕ := 4096

/-- A read of the source: the prefetched bytes come first. An error is returned when
nothing is left, and possibly together with the last bytes or on a closed connection. -/
def Pump.read (p : Pump) (closed : Bool) (a : Answer) : Pump :=
  if p.ahead ≠ [] then
    { p with
      ahead := p.ahead.drop bufferSize
      payload := p.ahead.take bufferSize
      stage := .check false }
  else if p.rest = [] ∨ (closed ∧ a.fails) then { p with stage := .tail true }
  else
    let n := min (max a.size 1) bufferSize
    { p with
      rest := p.rest.drop n
      payload := p.rest.take n
      stage := .check (p.rest.length ≤ n ∧ a.fails) }

/-- One step of the pump of a direction; `count.Add` is followed by `reachedBytes`, which
`relayStep` calls. -/
def pumpStep (s : Relay) (d : Direction) (p : Pump) (a : Answer) : Pump :=
  match p.stage with
  | .loop => { p with stage := if s.blocked d then .held else .read }
  | .held => { p with stage := .done }
  | .read => p.read s.closed a
  | .check last =>
    if s.blocked d then { p with payload := [], stage := .loop } else { p with stage := .cut last }
  | .cut last => { p with stage := .pace last (s.chunk d p) }
  | .pace last n => { p with stage := if s.paced d && s.cancelled && a.fails then .done else .write last n }
  | .write last n =>
    { p with
      payload := p.payload.drop (min a.size n)
      written := p.written ++ p.payload.take (min a.size n)
      stage := .add last (min a.size n) (a.fails || a.size = 0) }
  | .add last written failed =>
    { p with count := p.count + written, stage := .wrote last failed }
  | .wrote last failed =>
    if failed then { p with stage := .done }
    else if s.blocked d then { p with payload := [], stage := .tail last }
    else if p.payload = [] then { p with stage := .tail last }
    else { p with stage := .cut last }
  | .tail last => { p with stage := if last || s.cancelled then .done else .loop }
  | .done => p

/-- `serve` returns; the deferred call records the end of the flow. -/
def Relay.finish (s : Relay) (outcome : String) (now : ℕ) : Relay :=
  { s with phase := .over outcome }.record { s.event with
    type := .flowFinished
    reached := s.applied
    applied := s.applied
    finishedAt := now
    outcome := outcome
    notReached := s.event.selected && !s.applied
    clientBytes := (s.pump .clientToUpstream).count
    upstreamBytes := (s.pump .upstreamToClient).count }

def waitCap : ℕ := 16*2^10

/-- The source of a direction after `n` bytes were read from it. -/
def Relay.take (s : Relay) (d : Direction) (n : ℕ) : Relay :=
  { s with pump := Function.update s.pump d { s.pump d with rest := (s.pump d).rest.drop n } }

def Relay.wait (s : Relay) (buffer : Bytes) (a : Answer) (now : ℕ) : Relay :=
  let rest := (s.pump .clientToUpstream).rest
  let n := min a.size (min bufferSize (waitCap - buffer.length))
  let s' := s.take .clientToUpstream n
  let buffer' := buffer ++ rest.take n
  if a.fails ∧ a.timeout ∧ s.elapsed then
    if s.cancelled then s'.finish "client_closed" now
    else { s'.onApply with phase := .dialing buffer' }
  else if a.fails ∧ (rest.length ≤ n ∨ s.closed) then s'.finish "client_closed" now
  else { s' with phase := if buffer'.length < waitCap then .waiting buffer' else .full buffer' }

/-- The two pumps start; so does the fault, at once unless it has a trigger. -/
def Relay.forward (s : Relay) (prefetched : Bytes) : Relay :=
  let s' := { s with
    phase := .forwarding
    pump := Function.update s.pump .clientToUpstream
      { s.pump .clientToUpstream with ahead := prefetched } }
  match s.fault with
  | none => s'
  | some f => if f.afterDuration = none ∧ (f.afterBytes.getD 0) = 0 then s'.activate f else s'

def mainStep (s : Relay) (a : Answer) (now : ℕ) : Relay :=
  match s.phase with
  | .waiting buffer => s.wait buffer a now
  | .full buffer =>
    if s.cancelled ∧ a.fails then s.finish "client_closed" now
    else if s.elapsed then { s.onApply with phase := .dialing buffer } else s
  | .dialing prefetched => if a.fails then s.finish "dial_error" now else s.forward prefetched
  | .forwarding =>
    if (s.pump .clientToUpstream).stage = .done ∧ (s.pump .upstreamToClient).stage = .done then
      s.finish (if s.active then s.decision.fault.action else "forwarded") now
    else s
  | .over _ => s

inductive Input where
  | main (a : Answer) (now : ℕ)
  | pump (d : Direction) (a : Answer)
  | delayOver
  | timer
  | holdTimer
  | cancel

def relayStep (s : Relay) : Input → Relay
  | .main a now => mainStep s a now
  | .pump d a =>
    if s.phase = .forwarding then
      let p := pumpStep s d (s.pump d) a
      let s' := { s with pump := Function.update s.pump d p }
      match (s.pump d).stage with
      | .add _ (_+1) _ => s'.reachedBytes d p.count
      | _ => s'
    else s
  | .delayOver => { s with elapsed := true }
  | .timer =>
    match s.fault with
    | none => s
    | some f => if s.phase = .forwarding ∧ f.afterDuration.isSome then s.activate f else s
  | .holdTimer =>
    if s.active ∧ s.decision.fault.action = "hold" then { s with closed := true } else s
  | .cancel => { s with cancelled := true, closed := true }

/-- `serve` after the decision, on a connection whose client will send `client` and whose
upstream will send `upstream`. -/
def Relay.start (decision : Decision) (info : Info) (flowID proxyID : String) (now : ℕ)
    (client upstream : Bytes) : Relay :=
  let started := Event.started info flowID proxyID "tcp" now
  { decision := decision
    event := started.withDecision decision
    phase := if decision.selected ∧ decision.fault.action = "delay_connect" then .waiting []
      else .dialing []
    elapsed := false
    cancelled := false
    closed := false
    active := false
    applied := false
    pump := fun
      | .clientToUpstream => .start client
      | .upstreamToClient => .start upstream
    events := [started, started.withDecision decision] }

def relay (s : Relay) (inputs : List Input) : Relay :=
  (run (fun s i => ((), relayStep s i)) s inputs).2

end Faultline.TCP
