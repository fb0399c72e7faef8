import Faultline.TCPTransfer

/-! The fault controller of a TCP connection in single steps. `activate` may be called by
`start`, by the timer and by both pumps at the same time; a `sync.Once` picks one of them, and
a mutex orders its call against `stop`. Each input is one step of one goroutine, or a timer. -/
namespace Faultline.TCP

/-- The goroutines that call `activate`: `serve` itself from `start`, the timer, a pump. -/
inductive Caller where
  | start
  | timer
  | pump (d : Direction)
  deriving DecidableEq

/-- Where the function is that `once` runs. -/
inductive Act where
  | lock
  | check
  | store
  | apply
  | record
  | close
  | arm
  | unlock
  | leave
  deriving DecidableEq

/-- A `sync.Once`: nobody has called it, one caller runs its function, or that has returned. -/
inductive Once where
  | fresh
  | running (g : Caller) (act : Act)
  | done
  deriving DecidableEq

inductive Owner where
  | activation
  | stop
  deriving DecidableEq

/-- A `time.AfterFunc` timer. -/
inductive Alarm where
  | unset
  | armed
  | fired
  | stopped
  deriving DecidableEq

/-- `Stop` on a timer that may be nil. -/
def Alarm.stop : Alarm → Alarm
  | .armed => .stopped
  | t => t

/-- Where `serve` is: before the controller exists, in `start`, in `forward`, in the deferred
`stop`, in the deferred call that records the end, or after its return. -/
inductive Main where
  | serve
  | start
  | starting
  | forward
  | stop (outcome : String)
  | stopping (outcome : String)
  | finish (outcome : String)
  | returned
  deriving DecidableEq

inductive Outward where
  | recorded
  | closed
  | armed
  deriving DecidableEq

structure Lifecycle where
  relay : Relay
  main : Main
  once : Once
  mutex : Option Owner
  finished : Bool
  timer : Alarm
  hold : Alarm
  calling : Caller → Bool
  outward : List Outward

def actStep (s : Lifecycle) (g : Caller) : Act → Lifecycle
  | .lock =>
    if s.mutex = none then { s with mutex := some .activation, once := .running g .check } else s
  | .check => { s with once := .running g (if s.finished then .unlock else .store) }
  | .store => { s with relay := { s.relay with active := true }, once := .running g .apply }
  | .apply => { s with relay := { s.relay with applied := true }, once := .running g .record }
  | .record =>
    { s with
      relay := s.relay.record s.relay.event.asApplied
      outward := s.outward ++ [.recorded]
      once := .running g .close }
  | .close =>
    if s.relay.decision.fault.action = "close_connection" then
      { s with
        relay := { s.relay with closed := true }
        outward := s.outward ++ [.closed]
        once := .running g .arm }
    else { s with once := .running g .arm }
  | .arm =>
    if s.relay.decision.fault.action = "hold" then
      { s with hold := .armed, outward := s.outward ++ [.armed], once := .running g .unlock }
    else { s with once := .running g .unlock }
  | .unlock => { s with mutex := none, once := .running g .leave }
  | .leave => { s with once := .done, calling := Function.update s.calling g false }

/-- One step of a goroutine that is in a call of `activate`: the first one runs the function,
the others wait for it to return. -/
def callStep (s : Lifecycle) (g : Caller) : Lifecycle :=
  match s.once with
  | .fresh => { s with once := .running g .lock }
  | .running g' act => if g = g' then actStep s g act else s
  | .done => { s with calling := Function.update s.calling g false }

def Lifecycle.call (s : Lifecycle) (g : Caller) : Lifecycle :=
  { s with calling := Function.update s.calling g true }

/-- Whether `reachedBytes` calls `activate`. -/
def Relay.reaches (r : Relay) (d : Direction) (count : ℕ) : Bool :=
  match r.fault with
  | none => false
  | some f =>
    match f.afterBytes with
    | none => false
    | some after => decide (f.triggerDirection = d.name ∧ after.toInt ≤ count)

/-- One step of a pump. After a write it has counted, it may call `activate`. -/
def pumpCall (s : Lifecycle) (d : Direction) (a : Answer) : Lifecycle :=
  if s.calling (.pump d) then callStep s (.pump d)
  else
    let p := pumpStep s.relay d (s.relay.pump d) a
    let s' := { s with relay := { s.relay with pump := Function.update s.relay.pump d p } }
    match (s.relay.pump d).stage with
    | .add _ (_+1) _ => if s.relay.reaches d p.count then s'.call (.pump d) else s'
    | _ => s'

def serveStep (s : Lifecycle) (a : Answer) (now : ℕ) : Lifecycle :=
  match s.relay.phase with
  | .dialing prefetched =>
    if a.fails then { s with relay := s.relay.finish "dial_error" now, main := .returned }
    else
      { s with
        relay := { s.relay with
          phase := .forwarding
          pump := Function.update s.relay.pump .clientToUpstream
            { s.relay.pump .clientToUpstream with ahead := prefetched } }
        main := if s.relay.fault.isSome then .start else .forward }
  | _ =>
    let r := mainStep s.relay a now
    { s with
      relay := r
      main := match r.phase with
        | .over _ => .returned
        | _ => .serve }

/-- The `start` of the controller. -/
def startStep (s : Lifecycle) : Lifecycle :=
  match s.relay.fault with
  | none => { s with main := .forward }
  | some f =>
    if f.afterDuration.isSome then { s with timer := .armed, main := .forward }
    else if f.afterBytes.getD 0 = 0 then { s.call .start with main := .starting }
    else { s with main := .forward }

def Lifecycle.pumped (s : Lifecycle) (d : Direction) : Bool :=
  (s.relay.pump d).stage = .done && !s.calling (.pump d)

/-- One step of `serve`. -/
def lifeMain (s : Lifecycle) (a : Answer) (now : ℕ) : Lifecycle :=
  match s.main with
  | .serve => serveStep s a now
  | .start => startStep s
  | .starting => if s.calling .start then callStep s .start else { s with main := .forward }
  | .forward =>
    if s.pumped .clientToUpstream && s.pumped .upstreamToClient then
      { s with main := match s.relay.fault with
        | none => .finish "forwarded"
        | some f => .stop (if s.relay.active then f.action else "forwarded") }
    else s
  | .stop outcome =>
    if s.mutex = none then { s with mutex := some .stop, main := .stopping outcome } else s
  | .stopping outcome =>
    { s with
      finished := true
      timer := s.timer.stop
      hold := s.hold.stop
      mutex := none
      main := .finish outcome }
  | .finish outcome => { s with relay := s.relay.finish outcome now, main := .returned }
  | .returned => s

inductive LifeInput where
  | main (a : Answer) (now : ℕ)
  | pump (d : Direction) (a : Answer)
  | timerFires
  | timer
  | holdFires
  | holdCloses
  | delayOver
  | cancel

def lifeStep (s : Lifecycle) : LifeInput → Lifecycle
  | .main a now => lifeMain s a now
  | .pump d a => if s.main = .forward then pumpCall s d a else s
  | .timerFires => if s.timer = .armed then { s.call .timer with timer := .fired } else s
  | .timer => if s.calling .timer then callStep s .timer else s
  | .holdFires => if s.hold = .armed then { s with hold := .fired } else s
  | .holdCloses => if s.hold = .fired then { s with relay := { s.relay with closed := true } } else s
  | .delayOver => { s with relay := { s.relay with elapsed := true } }
  | .cancel => { s with relay := { s.relay with cancelled := true, closed := true } }

def Lifecycle.start (relay : Relay) : Lifecycle where
  relay := relay
  main := .serve
  once := .fresh
  mutex := none
  finished := false
  timer := .unset
  hold := .unset
  calling _ := false
  outward := []

def lifecycle (s : Lifecycle) (inputs : List LifeInput) : Lifecycle :=
  (run (fun s i => ((), lifeStep s i)) s inputs).2

end Faultline.TCP
