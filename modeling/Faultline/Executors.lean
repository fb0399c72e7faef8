import Faultline.Engine
import Faultline.TCPSession

/-! What the adapters do with a fault, with the places where they can panic: a nil pointer that
is dereferenced, a division by zero and a slice bound that is out of range give no result. -/
namespace Faultline

/-- `selectAttempt`, with its dereferences and its division. -/
def attemptSelector (lib : Library) (r : RuleState) (sequence : UInt64) : Option (Bool × ℕ) :=
  match r.rule.select.nth, r.rule.select.every with
  | some nth, _ => some (sequence = nth, r.draws)
  | none, some every => if every = 0 then none else some (sequence % every = 0, r.draws)
  | none, none =>
    r.rule.select.probability.map (fun p =>
      if p.eq Float64.zero then (false, r.draws)
      else if p.eq Float64.one then (true, r.draws)
      else ((lib.pcg r.seeds.1 r.seeds.2 r.draws).lt p, r.draws + 1))

/-! The HTTP adapters. -/

/-- An error of `Execute`: that of a call it makes, or of an action it does not know. -/
inductive ExecuteError where
  | returned (message : String)
  | unsupported (action : String)
  deriving DecidableEq

/-- What `Execute` asks of the flow, in order. -/
inductive FlowCall where
  | applied
  | cancelUpstream
  | respond (status : Int64) (body : String)
  | closeConnection
  | endStream
  | wait (duration : Int64)
  deriving DecidableEq

structure FlowAnswers where
  context : Option String
  wait : Option String
  respond : Option String
  closeConnection : Option String
  endStream : Option String

structure Execution where
  calls : List FlowCall
  applied : Bool
  error : Option ExecuteError
  deriving DecidableEq

/-- `Builtin.Execute` on a flow that can end a stream, as that of the HTTP handler can. -/
def execute (f : Fault) (a : FlowAnswers) : Option Execution :=
  match a.context with
  | some e => some ⟨[], false, some (.returned e)⟩
  | none =>
    if f.action = "delay" then
      f.duration.map (fun d => ⟨[.applied, .wait d], true, a.wait.map .returned⟩)
    else if f.action = "respond" then do
      let status ← f.status
      let body ← f.body
      return ⟨[.applied, .respond status body], true, a.respond.map .returned⟩
    else if f.action = "close_connection" then
      match a.closeConnection with
      | none => some ⟨[.cancelUpstream, .closeConnection, .applied], true, none⟩
      | some e => some ⟨[.cancelUpstream, .closeConnection], false, some (.returned e)⟩
    else if f.action = "hold_request" ∨ f.action = "hold_response" then
      f.maxDuration.map (fun d => ⟨[.cancelUpstream, .applied, .wait d, .endStream], true,
        (a.wait.or a.endStream).map .returned⟩)
    else some ⟨[], false, some (.unsupported f.action)⟩

/-- A body that truncates or throttles what is read through it. -/
structure Body where
  action : Fault
  remaining : Int64

def wrapBody (f : Fault) : Body := ⟨f, f.bytes.getD 0⟩

structure SourceAnswer where
  size : ℕ
  error : Option String
  wait : Option String

/-- A read of the body: the number of bytes, the error, and whether the fault was applied. -/
structure BodyRead where
  size : ℕ
  error : Option String
  applied : Bool
  deriving DecidableEq

def errTruncated : String := "body truncated by fault"

/-- `Body.Read` into a buffer of some length; a slice needs a bound that is not negative. -/
def Body.read (b : Body) (length : ℕ) (context : Option String) (a : SourceAnswer) :
    Option (BodyRead × Body) :=
  if length = 0 then some (⟨0, none, false⟩, b)
  else if context.isSome then some (⟨0, context, false⟩, b)
  else if b.action.action = "truncate" then
    if b.remaining = 0 then
      if 0 < min a.size 1 then some (⟨0, some errTruncated, true⟩, b)
      else some (⟨0, a.error, false⟩, b)
    else
      let bound := min (length : ℤ) b.remaining.toInt
      if bound < 0 then none
      else
        let n := min a.size bound.toNat
        some (⟨n, a.error, false⟩, { b with remaining := b.remaining - Int64.ofNat n })
  else
    match b.action.bytesPerSecond with
    | none => none
    | some rate =>
      let bound := min (length : ℤ) (min (16*2^10) (max 1 (rate / 10).toInt))
      if bound < 0 then none
      else
        let n := min a.size bound.toNat
        if 0 < n ∧ a.wait.isSome then some (⟨0, a.wait, true⟩, b)
        else some (⟨n, a.error, 0 < n⟩, b)

def Fault.onBody (f : Fault) : Bool := f.action = "truncate" || f.action = "throttle"

/-- The phases at which the handler acts on a fault. It asks an executor at either phase, and
it wraps the request body before the request and the response body after the headers. -/
def Fault.actsAt (f : Fault) (phase : String) : Prop :=
  if f.onBody then phase = beforeUpstreamRequest ∧ f.direction = "request" ∨
    phase = afterUpstreamHeaders ∧ f.direction = "response"
  else phase = beforeUpstreamRequest ∨ phase = afterUpstreamHeaders

namespace TCP

/-- What `start` does. -/
inductive Start where
  | timer (after : Int64)
  | activate
  | later
  deriving DecidableEq

def startFault (f : Fault) : Option Start :=
  if f.afterDuration.isSome then f.afterDuration.map .timer
  else if f.afterBytes.isNone then some .activate
  else f.afterBytes.map (fun n => if n = 0 then .activate else .later)

def activateFault (f : Fault) : Option (Option Int64) :=
  if f.action = "hold" then f.maxDuration.map some else some none

def heldTimer (f : Fault) (active : Bool) (d : Direction) : Option (Option Int64) :=
  if active && f.action = "hold" && f.direction = d.name then f.maxDuration.map some else some none

/-- The bytes up to the trigger that `pump` computes. -/
def remainingBytes (f : Fault) (active : Bool) (d : Direction) (count : Int64) :
    Option (Option Int64) :=
  if f.afterBytes.isSome ∧ f.triggerDirection = d.name ∧ active = false then
    f.afterBytes.map (fun n => some (n - count))
  else some none

def second : Int64 := 1000000000

def paceDuration (f : Fault) (active : Bool) (d : Direction) (n : Int64) : Option (Option Int64) :=
  if !active || f.action ≠ "throttle" || f.direction ≠ d.name then some none
  else
    match f.bytesPerSecond with
    | none => none
    | some rate => if rate = 0 then none else some (some (n * second / rate))

def dialDelay (f : Fault) : Option (Option Int64) :=
  if f.action = "delay_connect" then f.duration.map some else some none

end TCP
end Faultline
