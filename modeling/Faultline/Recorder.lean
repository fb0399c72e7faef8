import Faultline.Service

/-! The events of a flow, as the adapters fill them in, and the fault that the database
adapters apply to a confirmed commit. -/
namespace Faultline

inductive EventType where
  | flowStarted
  | decision
  | faultReached
  | faultApplied
  | flowFinished
  | control
  deriving DecidableEq

structure Event where
  info : Info
  type : EventType
  flowID : String
  proxyID : String
  protocol : String
  startedAt : ℕ
  finishedAt : ℕ
  ruleID : String
  eligibleSequence : UInt64
  selector : String
  probability : Option Float64
  nth : Option UInt64
  every : Option UInt64
  selected : Bool
  reached : Bool
  applied : Bool
  notReached : Bool
  phase : String
  action : String
  outcome : String
  commitConfirmed : Bool
  clientBytes : ℕ
  upstreamBytes : ℕ
  errorKind : String
  grpcStatus : String
  upstreamStatus : Int64
  deriving DecidableEq

def Event.started (info : Info) (flowID proxyID protocol : String) (now : ℕ) : Event :=
  ⟨info, .flowStarted, flowID, proxyID, protocol, now, 0, "", 0, "", none, none, none, false, false,
    false, false, "", "", "", false, 0, 0, "", "", 0⟩

def Event.zero : Event := Event.started ⟨"", 0, false, 0, 0, 0⟩ "" "" "" 0

def Event.withDecision (e : Event) (d : Decision) : Event :=
  { e with
    type := .decision
    ruleID := d.ruleID
    eligibleSequence := d.eligibleSequence
    selected := d.selected
    phase := d.fault.phase
    action := d.fault.action
    probability := d.selector.probability
    nth := d.selector.nth
    every := d.selector.every
    selector := if d.selector.probability.isSome then "probability"
      else if d.selector.nth.isSome then "nth"
      else if d.selector.every.isSome then "every"
      else e.selector }

def Event.asApplied (e : Event) : Event :=
  { e with type := .faultApplied, reached := true, applied := true }

/-- `apply` of the database adapters: whether the acknowledgement may be forwarded.
`elapsed` says that the timer fires before the session is cancelled. There is no
answer when the rule lacks the duration, which would be a nil dereference. -/
def applyFault (elapsed : Bool) (f : Fault) : Option Bool :=
  if f.action = "close_connection" then some false
  else
    let duration := if f.action = "hold_response" then f.maxDuration else f.duration
    duration.map (fun _ => elapsed && f.action = "delay")

/-- The decision that an adapter works with: it drops the error of `Decide`. -/
def decisionOf (r : Except String Decision) : Decision := r.toOption.getD (noDecision "")

end Faultline
