import Faultline.Executable
import Faultline.Machine

/-! One flow of the HTTP handler. `ServeHTTP` runs in one goroutine, with its deferred functions
on a stack; the transport reads the wrapped request body in another. Each input is one step of
one of them or of the context, so a list of inputs is an interleaving. What the network, the
reverse proxy and the executor answer is part of the input; what the client is sent is left out. -/
namespace Faultline.HTTP

/-- An error, by what the handler asks of it. -/
structure FlowError where
  message : String
  tls : Bool
  timeout : Bool
  unavailable : Bool

inductive ContextError where
  | deadline
  | canceled
  deriving DecidableEq

def ContextError.error : ContextError → FlowError
  | .deadline => ⟨"context deadline exceeded", false, true, false⟩
  | .canceled => ⟨"context canceled", false, false, false⟩

def errUnavailable : FlowError := ⟨"fault executor is not implemented", false, false, true⟩

def errUpgrade : FlowError := ⟨"upstream protocol upgrade is unsupported", false, false, false⟩

def errAbortHandler : FlowError := ⟨"net/http: abort Handler", false, false, false⟩

def errorKind (e : FlowError) (fallback : String) : String :=
  if e.tls then "upstream_tls" else if e.timeout then "upstream_timeout" else fallback

structure Report where
  protocol : String
  grpcStatus : String
  flowID : String
  info : Info
  decision : Decision
  reached : Bool
  applied : Bool
  notReached : Bool
  outcome : String
  err : Option FlowError
  startedAt : ℕ
  finishedAt : ℕ
  upstreamStatus : Int64
  errorKind : String

def eventOutcome (kind : EventType) (r : Report) : String :=
  if kind ≠ .flowFinished then ""
  else if r.outcome = "completed" then (if r.applied then "fault_applied" else "pass_through")
  else if r.outcome = "canceled" then r.errorKind
  else r.outcome

def event (kind : EventType) (r : Report) (proxyID : String) : Event where
  info := r.info
  type := kind
  flowID := r.flowID
  proxyID := proxyID
  protocol := r.protocol
  startedAt := r.startedAt
  finishedAt := r.finishedAt
  ruleID := r.decision.ruleID
  eligibleSequence := r.decision.eligibleSequence
  selector := if r.decision.selector.probability.isSome then "probability"
    else if r.decision.selector.nth.isSome then "nth"
    else if r.decision.selector.every.isSome then "every" else ""
  probability := r.decision.selector.probability
  nth := r.decision.selector.nth
  every := r.decision.selector.every
  selected := r.decision.selected
  reached := r.reached
  applied := r.applied
  notReached := r.notReached
  phase := r.decision.fault.phase
  action := r.decision.fault.action
  outcome := eventOutcome kind r
  commitConfirmed := false
  clientBytes := 0
  upstreamBytes := 0
  errorKind := r.errorKind
  grpcStatus := r.grpcStatus
  upstreamStatus := r.upstreamStatus

/-- What the handler reads of a request. `timeout` is whether a gRPC timeout header is valid. -/
structure Request where
  protoMajor : ℕ
  protoMinor : ℕ
  method : String
  upgrade : Bool
  absolute : Bool
  grpc : Bool
  timeout : Option Bool
  hasBody : Bool

/-- The fault of a rule that an HTTP proxy of an accepted document has. -/
def FromRule (f : Fault) : Prop :=
  ∃ lib y host d, Accepted lib y host d ∧
    ∃ p ∈ d.config.proxies, isHTTP p.protocol = true ∧ ∃ r ∈ p.ruleList, r.fault = f

/-- A call of `ServeHTTP`: the handler, the request and what the snapshot decides. -/
structure Call where
  protocol : String
  proxyID : String
  executor : Bool
  request : Request
  decision : Except String Decision
  decided : ∀ d, decision = .ok d → d.selected = true → FromRule d.fault

/-- The phases at which `apply` is called. -/
inductive FlowPhase where
  | before
  | after
  deriving DecidableEq

def FlowPhase.name : FlowPhase → String
  | .before => beforeUpstreamRequest
  | .after => afterUpstreamHeaders

inductive Deferred where
  | finish
  | slot
  | cancel
  | deadline
  | cleanup
  | closeBody
  | recover
  deriving DecidableEq

/-- Where the handler is. From `closeBody` to `loadApplied` it runs the deferred function that
closes the request body, from `cancelFlow` to `settle` the cleanup. -/
inductive FlowAt where
  | start
  | check
  | slot
  | decide
  | apply (phase : FlowPhase)
  | executing (phase : FlowPhase)
  | executed (phase : FlowPhase) (err : Option FlowError)
  | wrap
  | wrapResponse
  | proxying
  | served
  | unwinding
  | closeSource
  | joinBody
  | loadApplied
  | cancelFlow
  | loadReport
  | joinDiscard
  | settle
  | done

/-- Where a read of the wrapped request body is: it holds the mutex of the body unless it is
idle. `closed` says that the source was closed when its read began. -/
inductive ReaderAt where
  | idle
  | entered
  | source (closed : Bool)
  | applying (next : Body)
  | recording (next : Body)
  | leaving (next : Body)

/-- The flow, with the events it has recorded. `recording` says that the handler has set
`applied` and not recorded the event yet. -/
structure Flow where
  stage : FlowAt
  defers : List Deferred
  panicking : Bool
  report : Report
  appliedEvent : Event
  applied : Bool
  recording : Bool
  terminal : Bool
  disconnected : Bool
  context : Option ContextError
  cancelled : Bool
  shutdown : Bool
  uploaded : Bool
  discarding : Bool
  responded : Bool
  hasBody : Bool
  body : Option Body
  bodyClosed : Bool
  reader : ReaderAt
  response : Option Body
  events : List Event

def Flow.new (c : Call) (flowID : String) (info : Info) (now : ℕ) : Flow where
  stage := .start
  defers := []
  panicking := false
  report := ⟨c.protocol, "", flowID, info, noDecision "", false, false, false, "completed", none, now,
    0, 0, ""⟩
  appliedEvent := .zero
  applied := false
  recording := false
  terminal := false
  disconnected := false
  context := none
  cancelled := false
  shutdown := false
  uploaded := !c.request.hasBody
  discarding := false
  responded := false
  hasBody := false
  body := none
  bodyClosed := false
  reader := .idle
  response := none
  events := []

def Flow.record (c : Call) (s : Flow) (kind : EventType) : Flow :=
  { s with events := s.events ++ [event kind s.report c.proxyID] }

def Flow.return (s : Flow) : Flow := { s with stage := .unwinding }

def Flow.panic (s : Flow) : Flow := { s with stage := .unwinding, panicking := true }

def Flow.refuse (s : Flow) (outcome : String) : Flow :=
  { s with report := { s.report with outcome := outcome, errorKind := outcome } }.return

/-- `onApplied`: the first caller records the event next. -/
def Flow.onApplied (s : Flow) : Flow :=
  if s.applied then s else { s with applied := true, recording := true }

def unsupported (c : Call) : Bool :=
  (c.protocol = "http1" && (c.request.protoMajor ≠ 1 || c.request.protoMinor ≠ 1)) ||
    (c.protocol ≠ "http1" && c.request.protoMajor ≠ 2) || c.request.method = "CONNECT" ||
    c.request.upgrade || c.request.absolute

def checkStep (c : Call) (s : Flow) : Flow :=
  if unsupported c ∨ c.protocol = "grpc" ∧ !c.request.grpc then s.refuse "unsupported_request"
  else { s with stage := .slot }

/-- Takes a slot, checks the timeout and sets up the context and its cleanup. -/
def slotStep (c : Call) (s : Flow) (free : Bool) : Flow :=
  if !free then s.refuse "proxy_overload"
  else if c.protocol = "grpc" ∧ c.request.timeout = some false then
    { s with defers := .slot :: s.defers }.refuse "unsupported_request"
  else
    { s with defers := .cleanup :: .deadline :: .cancel :: .slot :: s.defers, stage := .decide }

def decideStep (c : Call) (s : Flow) : Flow :=
  let s := { s with report := { s.report with decision := decisionOf c.decision } }.record c .decision
  match c.decision with
  | .error e =>
    { s with report := { s.report with
        outcome := "proxy_error", err := some ⟨e, false, false, false⟩ } }.return
  | .ok _ => { s with stage := .apply .before }

/-- What follows a phase whose `apply` returned nil. -/
def Flow.passed (s : Flow) : FlowPhase → Flow
  | .before => { s with stage := .wrap }
  | .after => { s with stage := .wrapResponse }

def Flow.closeConnection (c : Call) (s : Flow) : Flow :=
  if c.request.protoMajor = 2 ∨ s.terminal then s else { s with terminal := true, disconnected := true }

/-- `fail`, and whether it panics; no error stands for `errTerminal`. -/
def Flow.fail (c : Call) (s : Flow) (err : Option FlowError) : Flow × Bool :=
  match err with
  | none => (s, c.request.protoMajor = 2 && s.disconnected)
  | some e =>
    match s.context with
    | some ce =>
      let s := { s with report := { s.report with err := some ce.error } }
      if c.request.protoMajor = 2 then (s, true) else (s.closeConnection c, false)
    | none =>
      let outcome := if e.unavailable then "executor_unavailable"
        else if s.report.outcome = "completed" then "upstream_error" else s.report.outcome
      ({ s with report := { s.report with outcome := outcome, err := some e } }, false)

def Flow.failed (c : Call) (s : Flow) (phase : FlowPhase) (err : Option FlowError) : Flow :=
  if (s.fail c err).2 then (s.fail c err).1.panic
  else
    match phase with
    | .before => (s.fail c err).1.return
    | .after => { (s.fail c err).1 with stage := .served }

/-- `apply` reports that the fault is reached, and prepares the event of its application. -/
def Flow.reach (c : Call) (s : Flow) : Flow :=
  let s := { s with report := { s.report with reached := true } }.record c .faultReached
  { s with appliedEvent := { event .faultApplied s.report c.proxyID with applied := true } }

/-- `apply` up to the call of the executor. -/
def applyStep (c : Call) (s : Flow) (phase : FlowPhase) : Flow :=
  if !s.report.decision.selected || s.report.decision.fault.phase ≠ phase.name then s.passed phase
  else
    let s := s.reach c
    if s.report.decision.fault.onBody then s.passed phase
    else if !c.executor then s.failed c phase (some errUnavailable)
    else
      { s with
        discarding := s.discarding || (c.request.protoMajor = 1 &&
          s.report.decision.fault.action = "hold_request" && !s.uploaded)
        stage := .executing phase }

/-- `apply` after the executor has returned. -/
def executedStep (c : Call) (s : Flow) (phase : FlowPhase) (err : Option FlowError) : Flow :=
  match err with
  | some e =>
    { s with report := { s.report with outcome := "executor_error", err := some e } }.failed c phase
      (some e)
  | none => if s.terminal then s.failed c phase none else s.passed phase

/-- The request body is wrapped, and its deferred close stands below the recovery. -/
def wrapStep (s : Flow) : Flow :=
  let f := s.report.decision.fault
  if s.report.decision.selected ∧ f.onBody ∧ f.direction = "request" then
    { s with
      body := some (wrapBody f)
      defers := .recover :: .closeBody :: s.defers
      stage := .proxying }
  else { s with defers := .recover :: s.defers, stage := .proxying }

def wrapResponseStep (c : Call) (s : Flow) : Flow :=
  let f := s.report.decision.fault
  if s.report.decision.selected ∧ f.onBody ∧ f.direction = "response" ∧ c.request.method ≠ "HEAD" ∧
      s.hasBody then
    { s with response := some (wrapBody f), stage := .proxying }
  else { s with stage := .proxying }

/-- The end of `ServeHTTP` after the reverse proxy has returned. -/
def servedStep (c : Call) (s : Flow) (grpcStatus : String) : Flow :=
  if c.protocol = "grpc" ∧ s.responded then
    if grpcStatus ≠ "0" then
      { s with report := { s.report with
          grpcStatus := grpcStatus, outcome := "rpc_error", errorKind := "upstream_rpc" } }.return
    else { s with report := { s.report with grpcStatus := grpcStatus } }.return
  else s.return

def unwindStep (c : Call) (s : Flow) (now : ℕ) : Flow :=
  match s.defers with
  | [] => s
  | .recover :: rest =>
    if s.panicking then
      { s with
        defers := rest
        report := { s.report with outcome := "stream_error", err := some errAbortHandler } }
    else { s with defers := rest }
  | .closeBody :: rest => { s with defers := rest, cancelled := true, stage := .closeSource }
  | .cleanup :: rest => { s with defers := rest, stage := .cancelFlow }
  | .deadline :: rest => { s with defers := rest }
  | .cancel :: rest =>
    { s with defers := rest, cancelled := true, context := s.context.or (some .canceled) }
  | .slot :: rest => { s with defers := rest }
  | .finish :: rest =>
    { s with
      defers := rest
      stage := .done
      report := { s.report with
        finishedAt := now
        notReached := s.report.decision.selected && !s.report.reached } }.record c .flowFinished

def settleStep (s : Flow) : Flow :=
  let r := match s.context with
    | some e =>
      if !s.disconnected || s.report.err.isSome then
        { s.report with
          outcome := "canceled"
          err := some e.error
          errorKind := if s.shutdown then "shutdown"
            else if e = ContextError.deadline then "proxy_timeout" else "client_canceled" }
      else s.report
    | none => s.report
  let kind := match r.err with
    | some e => if r.errorKind = "" then errorKind e r.outcome else r.errorKind
    | none => r.errorKind
  { s with report := { r with errorKind := kind } }.return

inductive ExecutorCall where
  | applied
  | cancelUpstream
  | respond
  | closeConnection
  | endStream

def executorCall (c : Call) (s : Flow) : ExecutorCall → Flow
  | .applied => s.onApplied
  | .cancelUpstream => { s with cancelled := true }
  | .respond => { s with terminal := true }
  | .closeConnection => s.closeConnection c
  | .endStream =>
    if c.request.protoMajor = 2 then { s with terminal := true, disconnected := true }
    else s.closeConnection c

/-- A read of the response body by the reverse proxy, in the goroutine of the handler. -/
def copyStep (s : Flow) (length : ℕ) (a : SourceAnswer) : Flow :=
  match s.response with
  | none => s
  | some b =>
    match b.read length (if s.cancelled then some "context canceled" else none) a with
    | none => s.panic
    | some (r, b') =>
      if r.applied then { s with response := some b' }.onApplied else { s with response := some b' }

inductive ProxyInput where
  | response (status : Int64) (hasBody : Bool)
  | copy (length : ℕ) (a : SourceAnswer)
  | fails (e : FlowError)
  | served
  | panics

def proxyStep (c : Call) (s : Flow) : ProxyInput → Flow
  | .response status hasBody =>
    if s.responded then s
    else
      let s := { s with hasBody := hasBody, report := { s.report with upstreamStatus := status } }
      if status = 101 then s.failed c .after (some errUpgrade)
      else { s with responded := true, stage := .apply .after }
  | .copy length a => copyStep s length a
  | .fails e => s.failed c .after (some e)
  | .served => { s with stage := .served }
  | .panics => s.panic

/-- The inputs of the handler's goroutine. An input acts where the handler waits for it. -/
inductive HandlerInput where
  | step (now : ℕ)
  | slot (free : Bool)
  | call (call : ExecutorCall)
  | executed (applied : Bool) (err : Option FlowError)
  | executorPanics
  | proxy (i : ProxyInput)
  | grpcStatus (status : String)

def handlerStep (c : Call) (s : Flow) (i : HandlerInput) : Flow :=
  if s.recording then { s with recording := false, events := s.events ++ [s.appliedEvent] }
  else
    match s.stage, i with
    | .start, .step _ => { s.record c .flowStarted with defers := [.finish], stage := .check }
    | .check, .step _ => checkStep c s
    | .slot, .slot free => slotStep c s free
    | .decide, .step _ => decideStep c s
    | .apply phase, .step _ => applyStep c s phase
    | .executing _, .call call => executorCall c s call
    | .executing phase, .executed applied err =>
      if applied then { s with stage := .executed phase err }.onApplied
      else { s with stage := .executed phase err }
    | .executing _, .executorPanics => s.panic
    | .executed phase err, .step _ => executedStep c s phase err
    | .wrap, .step _ => wrapStep s
    | .wrapResponse, .step _ => wrapResponseStep c s
    | .proxying, .proxy i => proxyStep c s i
    | .served, .grpcStatus status => servedStep c s status
    | .unwinding, .step now => unwindStep c s now
    | .closeSource, .step _ => { s with bodyClosed := true, stage := .joinBody }
    | .joinBody, .step _ =>
      match s.reader with
      | .idle => { s with stage := .loadApplied }
      | _ => s
    | .loadApplied, .step _ => { s with report := { s.report with applied := s.applied } }.return
    | .cancelFlow, .step _ => { s with cancelled := true, stage := .loadReport }
    | .loadReport, .step _ =>
      { s with report := { s.report with applied := s.applied }, stage := .joinDiscard }
    | .joinDiscard, .step _ => if s.discarding then s else { s with stage := .settle }
    | .settle, .step _ => settleStep s
    | _, _ => s

/-- One step of a read of the wrapped request body. A closed source has no data. -/
def readerStep (s : Flow) (length : ℕ) (a : SourceAnswer) : Flow :=
  match s.body with
  | none => s
  | some b =>
    match s.reader with
    | .idle => { s with reader := .entered }
    | .entered => { s with reader := if s.cancelled then .idle else .source s.bodyClosed }
    | .source closed =>
      match b.read length none (if closed then { a with size := 0 } else a) with
      | none => { s with reader := .idle }
      | some (r, next) =>
        if r.applied then { s with reader := .applying next }
        else { s with body := some next, reader := .idle }
    | .applying next =>
      if s.applied then { s with reader := .leaving next }
      else { s with applied := true, reader := .recording next }
    | .recording next =>
      { s with events := s.events ++ [s.appliedEvent], reader := .leaving next }
    | .leaving next => { s with body := some next, reader := .idle }

inductive FlowInput where
  | handler (i : HandlerInput)
  | reader (length : ℕ) (a : SourceAnswer)
  | cancel (e : ContextError)
  | closeBody
  | uploaded
  | discarded
  | shutdown

def flowStep (c : Call) (s : Flow) : FlowInput → Flow
  | .handler i => handlerStep c s i
  | .reader length a => readerStep s length a
  | .cancel e => { s with context := s.context.or (some e), cancelled := true }
  | .closeBody => { s with bodyClosed := true }
  | .uploaded => { s with uploaded := true }
  | .discarded => { s with discarding := false }
  | .shutdown => { s with shutdown := true }

end Faultline.HTTP
