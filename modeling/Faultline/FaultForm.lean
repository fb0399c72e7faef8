import Faultline.ConfigValidate
import Faultline.Machine

/-! The form in which the managed UI edits the fault of a rule, and what the server accepts. -/
namespace Faultline
namespace Form

def faultOf (action phase : String) : Fault := ⟨phase, action, none, none, none, none, "", none, none, none, none, ""⟩

/-- What the script leaves undefined is not in the draft, and absent for the server. -/
def defaultFault (action protocol : String) : Fault :=
  if protocol = "tcp" then
    let f := faultOf action (if action = "delay_connect" then "on_connect" else "on_transfer")
    if action = "delay_connect" then { f with duration := some 100000000 }
    else if action = "hold" then { f with direction := "upstream_to_client", maxDuration := some 5000000000 }
    else if action = "throttle" then { f with direction := "client_to_upstream", bytesPerSecond := some 1024 }
    else f
  else
    let f := faultOf action (if isDatabase protocol then "after_commit"
      else if action = "hold_response" then "after_upstream_headers" else "before_upstream_request")
    if action = "delay" then { f with duration := some 100000000 }
    else if "hold_".toList.isPrefixOf action.toList then { f with maxDuration := some 5000000000 }
    else if action = "respond" then { f with status := some 503, body := some "Injected fault" }
    else if action = "truncate" then { f with direction := "request", bytes := some 0 }
    else if action = "throttle" then { f with direction := "request", bytesPerSecond := some 1024 }
    else f

def faultPhases (f : Fault) (protocol : String) : List String :=
  if isDatabase protocol then [afterCommit]
  else if f.action = "hold_response" ∨ f.action ∈ ["truncate", "throttle"] ∧ f.direction = "response" then
    [afterUpstreamHeaders]
  else if f.action ∈ ["respond", "hold_request", "truncate", "throttle"] then [beforeUpstreamRequest]
  else [beforeUpstreamRequest, afterUpstreamHeaders]

/-- The options of the direction field, if it is shown. -/
def directions (protocol action : String) : List String :=
  if protocol = "tcp" then
    if action ∈ ["hold", "throttle"] then ["client_to_upstream", "upstream_to_client"] else []
  else if action ∈ ["truncate", "throttle"] then ["request", "response"]
  else []

/-- The fields that an action takes its number from. -/
inductive Parameter where
  | duration
  | maxDuration
  | status
  | bytes
  | bytesPerSecond
  deriving DecidableEq

def parameter (protocol action : String) : Option Parameter :=
  if protocol = "tcp" then
    if action = "delay_connect" then some .duration
    else if action = "hold" then some .maxDuration
    else if action = "throttle" then some .bytesPerSecond
    else none
  else if action = "delay" then some .duration
  else if action = "hold_request" ∨ action = "hold_response" then some .maxDuration
  else if action = "respond" then some .status
  else if action = "truncate" then some .bytes
  else if action = "throttle" then some .bytesPerSecond
  else none

def Parameter.set (f : Fault) (n : Option Int64) : Parameter → Fault
  | .duration => { f with duration := n }
  | .maxDuration => { f with maxDuration := n }
  | .status => { f with status := n }
  | .bytes => { f with bytes := n }
  | .bytesPerSecond => { f with bytesPerSecond := n }

def Parameter.inRange (n : Int64) : Parameter → Bool
  | .status => 200 ≤ n && n ≤ 599
  | .bytes => 0 ≤ n
  | _ => 0 < n

def triggered (protocol action : String) : Bool := protocol = "tcp" && action ≠ "delay_connect"

def triggerOf (f : Fault) : String :=
  if f.afterBytes.isSome then "after_bytes" else if f.afterDuration.isSome then "after_duration" else "immediate"

/-- A change of one field. Numbers are those that the server decodes, and none for an empty field. -/
inductive Edit where
  | action (v : String)
  | phase (v : String)
  | direction (v : String)
  | trigger (v : String)
  | triggerDirection (v : String)
  | afterBytes (n : Option Int64)
  | afterDuration (n : Option Int64)
  | parameter (n : Option Int64)
  | body (v : String)

def edit (protocol : String) (f : Fault) : Edit → Fault
  | .action v => defaultFault v protocol
  | .phase v => { f with phase := v }
  | .direction v =>
    if protocol = "tcp" then { f with direction := v }
    else { f with direction := v, phase := if v = "request" then beforeUpstreamRequest else afterUpstreamHeaders }
  | .trigger v =>
    let f := { f with afterBytes := none, afterDuration := none, triggerDirection := "" }
    if v = "after_bytes" then { f with afterBytes := some 1024, triggerDirection := "client_to_upstream" }
    else if v = "after_duration" then { f with afterDuration := some 100000000 }
    else f
  | .triggerDirection v => { f with triggerDirection := v }
  | .afterBytes n => { f with afterBytes := n }
  | .afterDuration n => { f with afterDuration := n }
  | .parameter n => ((parameter protocol f.action).map (Parameter.set f n)).getD f
  | .body v => { f with body := some v }

/-- The form shows the field, and the value is one of its options, or a number in its range. Which
numbers can be typed is up to the arithmetic of the script. -/
def offers (typed : Int64 → Bool) (protocol : String) (f : Fault) : Edit → Bool
  | .action v => v ∈ actions protocol
  | .phase v => protocol ≠ "tcp" && v ∈ faultPhases f protocol
  | .direction v => v ∈ directions protocol f.action
  | .trigger v => triggered protocol f.action && v ∈ ["immediate", "after_bytes", "after_duration"]
  | .triggerDirection v => triggered protocol f.action && triggerOf f = "after_bytes" &&
      v ∈ ["client_to_upstream", "upstream_to_client"]
  | .afterBytes n => triggered protocol f.action && triggerOf f = "after_bytes" && n.any (fun n => 0 ≤ n && typed n)
  | .afterDuration n => triggered protocol f.action && triggerOf f = "after_duration" && n.any (fun n => 0 < n && typed n)
  | .parameter n => n.any (fun n => (parameter protocol f.action).any (Parameter.inRange n) && typed n)
  | .body _ => protocol ≠ "tcp" && f.action = "respond"

/-- There is nothing else to choose in the form. -/
def step (typed : Int64 → Bool) (protocol : String) (f : Fault) (e : Edit) : Unit × Fault :=
  ((), if offers typed protocol f e then edit protocol f e else f)

/-- A number of the fault: in range if the form shows its field, and otherwise absent. -/
def Holds (protocol action : String) (p : Parameter) (n : Option Int64) : Prop :=
  if parameter protocol action = some p then n.any (fun n => p.inRange n) = true else n = none

/-- The trigger: none, a number of bytes in a direction, or a time. -/
def TriggerHolds (shown : Bool) (towards : String) : Option Int64 → Option Int64 → Prop
  | none, none => towards = ""
  | some n, none => shown ∧ 0 ≤ n ∧ tcpDirection towards
  | none, some n => shown ∧ 0 < n ∧ towards = ""
  | some _, some _ => False

/-- Every field of the form has one of its values, and what the form does not show is absent. -/
@[mk_iff] structure Filled (protocol : String) (f : Fault) : Prop where
  action : f.action ∈ actions protocol
  phase : if protocol = "tcp" then f.phase = (if f.action = "delay_connect" then tcpOnConnect else tcpOnTransfer)
    else f.phase ∈ faultPhases f protocol
  direction : if directions protocol f.action = [] then f.direction = "" else f.direction ∈ directions protocol f.action
  duration : Holds protocol f.action .duration f.duration
  maxDuration : Holds protocol f.action .maxDuration f.maxDuration
  status : Holds protocol f.action .status f.status
  bytes : Holds protocol f.action .bytes f.bytes
  bytesPerSecond : Holds protocol f.action .bytesPerSecond f.bytesPerSecond
  body : f.body.isSome ↔ f.action = "respond"
  trigger : TriggerHolds (triggered protocol f.action) f.triggerDirection f.afterBytes f.afterDuration

/-- What the validators ask of the fault of a rule. -/
def Fits (protocol : String) (f : Fault) : Prop :=
  f.action ∈ actions protocol ∧
    if isDatabase protocol then f.phase = afterCommit ∧ validateFault { f with phase := afterUpstreamHeaders } "" = .ok ()
    else if protocol = "tcp" then
      ¬ (f.status.isSome ∨ f.body.isSome ∨ f.bytes.isSome) ∧ ¬ (f.afterBytes.isSome ∧ f.afterDuration.isSome) ∧
        ¬ f.afterBytes.any (· < 0) ∧ ¬ (f.afterBytes.isSome ∧ ¬ tcpDirection f.triggerDirection) ∧
        ¬ (f.afterBytes = none ∧ f.triggerDirection ≠ "") ∧ ¬ f.afterDuration.any (· ≤ 0) ∧
        validateTCPAction f "" = .ok ()
    else validateFault f "" = .ok () ∧ (f.action = "respond" → f.body.isSome)

theorem validateFault_ok (f : Fault) (path path' : String) :
    validateFault f path = .ok () ↔ validateFault f path' = .ok () := by
  simp only [validateFault, validateAction, bind_eq_ok, reject_eq_ok, exists_const]
  repeat' split
  all_goals simp only [bind_eq_ok, reject_eq_ok, exists_const]

theorem accepts_iff {protocol path : String} {r : Rule} (hr : validateProxyRule protocol r path = .ok r) (f : Fault) :
    validateProxyRule protocol { r with fault := f } path = .ok { r with fault := f } ↔ Fits protocol f := by
  have hplain := validateFault_ok f (path ++ ".fault") ""
  have hcopy := validateFault_ok { f with phase := afterUpstreamHeaders } (path ++ ".fault") ""
  have htcp : validateTCPAction f path = .ok () ↔ validateTCPAction f "" = .ok () := by
    unfold validateTCPAction
    repeat' split
    all_goals simp only [reject_eq_ok, invalid_ne_ok]
  have hbody : { f with body := if f.action = "respond" ∧ f.body = none then some "" else f.body } = f ↔
      (f.action = "respond" → f.body.isSome) := by
    obtain ⟨_, _, _, _, _, body, _, _, _, _, _, _⟩ := f
    cases body <;> simp
  obtain ⟨id, enabled, ⟨pattern, method, service, exact, headers⟩, select, f'⟩ := r
  unfold Fits
  simp only [validateProxyRule, bind_eq_ok, reject_eq_ok, exists_const] at hr ⊢
  by_cases hdb : isDatabase protocol = true
  · simp only [if_pos hdb, validateCommitRule, validateRule, bind_eq_ok, reject_eq_ok, exists_const, pure_eq_ok] at hr ⊢
    grind
  by_cases hprotocol : protocol = "tcp"
  · simp only [if_neg hdb, if_pos hprotocol, validateTCPRule, bind_eq_ok, reject_eq_ok, exists_const, pure_eq_ok] at hr ⊢
    grind
  · simp only [if_neg hdb, if_neg hprotocol, validateRule, bind_eq_ok, reject_eq_ok, exists_const, pure_eq_ok] at hr ⊢
    grind

theorem actions_cases {protocol v : String} (h : v ∈ actions protocol) :
    isDatabase protocol = false ∧ protocol = "tcp" ∧
        (v = "close_connection" ∨ v = "hold" ∨ v = "throttle" ∨ v = "delay_connect") ∨
      isDatabase protocol = true ∧ protocol ≠ "tcp" ∧ (v = "delay" ∨ v = "hold_response" ∨ v = "close_connection") ∨
      isDatabase protocol = false ∧ protocol ≠ "tcp" ∧ (v = "delay" ∨ v = "hold_request" ∨ v = "hold_response" ∨
        v = "truncate" ∨ v = "throttle" ∨ v = "respond" ∨ v = "close_connection") := by
  have htcp : protocol = "tcp" → isDatabase protocol = false := by
    intro hp
    rw [hp]
    rfl
  unfold actions at h
  grind

theorem triggerHolds_hidden (towards : String) (bytes wait : Option Int64) :
    TriggerHolds false towards bytes wait ↔ bytes = none ∧ wait = none ∧ towards = "" := by
  cases bytes <;> cases wait <;> simp [TriggerHolds]

theorem fits_iff (protocol : String) (f : Fault) : Fits protocol f ↔ Filled protocol f := by
  unfold Fits
  rw [filled_iff]
  apply and_congr_right
  intro haction
  obtain ⟨phase, action, duration, maxDuration, status, body, direction, bytes, rate, afterBytes, afterDuration, towards⟩ := f
  -- the validators, one action of one kind of protocol at a time
  rcases actions_cases haction with ⟨hdb, htcp, h⟩ | ⟨hdb, htcp, h | h | h⟩ | ⟨hdb, htcp, h | h | h | h | h | h | h⟩
  · rcases h with h | h | h | h
    all_goals
      cases h
      cases afterBytes <;> cases afterDuration <;>
      simp [htcp, validateTCPAction, notPositive, tcpOnTransfer, tcpOnConnect, tcpDirection, directions, Holds, parameter,
        Parameter.inRange, triggered, TriggerHolds, Option.any_eq_true, Option.all_eq_false] <;>
      grind
  all_goals
    cases h
    simp [hdb, htcp, validateFault, validateAction, notPositive, beforeUpstreamRequest, afterUpstreamHeaders,
      faultPhases, directions, Holds, parameter, Parameter.inRange, triggered, triggerHolds_hidden, Option.any_eq_true,
      Option.all_eq_false]
    grind

theorem default_action (v protocol : String) : (defaultFault v protocol).action = v := by
  unfold defaultFault faultOf
  simp only
  split_ifs <;> rfl

theorem filled_default {protocol v : String} (h : v ∈ actions protocol) : Filled protocol (defaultFault v protocol) := by
  rw [filled_iff, default_action]
  refine ⟨h, ?_⟩
  rcases actions_cases h with ⟨hdb, htcp, hv | hv | hv | hv⟩ | ⟨hdb, htcp, hv | hv | hv⟩ |
    ⟨hdb, htcp, hv | hv | hv | hv | hv | hv | hv⟩
  all_goals
    cases hv
    simp [hdb, htcp, defaultFault, faultOf, tcpOnTransfer, tcpOnConnect, beforeUpstreamRequest, afterUpstreamHeaders,
      afterCommit, faultPhases, directions, Holds, parameter, Parameter.inRange, TriggerHolds]

section Edits
variable {typed : Int64 → Bool} {protocol : String} {f s : Fault}

theorem filled_direction (h : Filled protocol f) {v : String} (hv : v ∈ directions protocol f.action) :
    Filled protocol (edit protocol f (.direction v)) := by
  have hdirection : if directions protocol f.action = [] then v = "" else v ∈ directions protocol f.action := by
    rw [if_neg (List.ne_nil_of_mem hv)]
    exact hv
  by_cases htcp : protocol = "tcp"
  · have hphase := h.phase
    rw [if_pos htcp] at hphase
    simp only [edit, if_pos htcp]
    exact { h with phase := by rw [if_pos htcp]; exact hphase, direction := hdirection }
  · have haction := actions_cases h.action
    simp only [edit, if_neg htcp]
    refine { h with phase := ?_, direction := hdirection }
    rw [if_neg htcp]
    unfold directions at hv
    unfold faultPhases
    grind

theorem filled_edit (h : Filled protocol f) {e : Edit} (he : offers typed protocol f e = true) :
    Filled protocol (edit protocol f e) := by
  have htrigger := h.trigger
  cases e <;> simp only [offers, Bool.and_eq_true, decide_eq_true_eq] at he
  case action v => exact filled_default he
  case phase v => exact { h with phase := by rw [if_neg he.1]; exact he.2 }
  case direction v => exact filled_direction h he
  case body v => exact { h with body := by simp [edit, he.2] }
  case parameter n =>
    obtain _ | k := n
    · cases he
    cases hp : parameter protocol f.action with
    | none => simp [hp] at he
    | some p =>
      simp [hp] at he
      simp only [edit, hp, Option.map_some, Option.getD_some]
      cases p
      · exact { h with duration := by simp [Holds, hp, he, Parameter.set] }
      · exact { h with maxDuration := by simp [Holds, hp, he, Parameter.set] }
      · exact { h with status := by simp [Holds, hp, he, Parameter.set] }
      · exact { h with bytes := by simp [Holds, hp, he, Parameter.set] }
      · exact { h with bytesPerSecond := by simp [Holds, hp, he, Parameter.set] }
  case trigger v =>
    obtain ⟨hshown, hv⟩ := he
    simp only [List.mem_cons, List.not_mem_nil, or_false] at hv
    rcases hv with rfl | rfl | rfl
    all_goals exact { h with trigger := by simp [edit, TriggerHolds, hshown, tcpDirection] }
  -- the fields of a trigger that is shown
  all_goals
    refine { h with trigger := ?_ }
    simp only [edit]
    cases hbytes : f.afterBytes <;> cases hwait : f.afterDuration <;>
      simp [hbytes, hwait, triggerOf, Option.any_eq_true] at he htrigger ⊢ <;>
      grind [TriggerHolds, tcpDirection]

theorem filled_step (h : Filled protocol s) (e : Edit) : Filled protocol (step typed protocol s e).2 := by
  unfold step
  split_ifs with he
  · exact filled_edit h he
  · exact h

def number (f : Fault) : Option Int64 := f.duration.or (f.maxDuration.or (f.status.or (f.bytes.or f.bytesPerSecond)))

def triggerScript (f : Fault) : List Edit :=
  [.trigger (triggerOf f), .triggerDirection f.triggerDirection, .afterBytes f.afterBytes, .afterDuration f.afterDuration]

/-- The fault is set field by field; the form ignores what it does not show. -/
def script (f : Fault) : List Edit :=
  [.action f.action, .direction f.direction, .phase f.phase, .parameter (number f), .body (f.body.getD "")] ++
    triggerScript f

/-- The numbers of a fault. -/
def numbers (f : Fault) : List Int64 := (number f).toList ++ f.afterBytes.toList ++ f.afterDuration.toList

variable (hs : Filled protocol s) (h : Filled protocol f) (ha : s.action = f.action)
include hs h ha

theorem run_direction :
    (run (step typed protocol) s [.direction f.direction, .phase f.phase]).2 =
      { s with direction := f.direction, phase := f.phase } := by
  have hshown := And.intro hs.phase hs.direction
  have hwanted := And.intro h.phase h.direction
  clear hs h
  cases s
  cases f
  cases ha
  simp only [run, step, offers, edit, faultPhases, Bool.and_eq_true, decide_eq_true_eq] at hshown hwanted ⊢
  grind

theorem step_parameter (ht : ∀ n ∈ numbers f, typed n) :
    (step typed protocol s (.parameter (number f))).2 = { s with
      duration := f.duration, maxDuration := f.maxDuration, status := f.status, bytes := f.bytes,
      bytesPerSecond := f.bytesPerSecond } := by
  have htyped (q : Int64 → Bool) : (number f).any (fun n => q n && typed n) = (number f).any q := by
    cases hn : number f with
    | none => rfl
    | some n => simp [ht n (by simp [numbers, hn])]
  simp only [step, offers, htyped]
  clear ht htyped
  obtain ⟨-, -, -, h1, h2, h3, h4, h5, -, -⟩ := hs
  obtain ⟨-, -, -, h6, h7, h8, h9, h10, -, -⟩ := h
  obtain ⟨_, action, _, _, _, _, _, _, _, _, _, _⟩ := s
  cases f
  cases ha
  rcases hp : parameter protocol action with _ | p
  · simp [Holds, hp] at h1 h2 h3 h4 h5 h6 h7 h8 h9 h10
    simp [h1, h2, h3, h4, h5, h6, h7, h8, h9, h10]
  · cases p <;> simp [Holds, hp] at h1 h2 h3 h4 h5 h6 h7 h8 h9 h10 <;>
      simp [edit, number, Parameter.set, hp, h1, h2, h3, h4, h5, h6, h7, h8, h9, h10]

theorem step_body : (step typed protocol s (.body (f.body.getD ""))).2 = { s with body := f.body } := by
  have hshown := hs.body
  have hwanted := h.body
  have hcases := actions_cases h.action
  clear hs h
  obtain ⟨_, action, _, _, _, body, _, _, _, _, _, _⟩ := s
  obtain ⟨_, _, _, _, _, body', _, _, _, _, _, _⟩ := f
  cases ha
  cases body <;> cases body' <;> simp [step, offers, edit] at * <;> grind

theorem run_trigger (ht : ∀ n ∈ numbers f, typed n) :
    (run (step typed protocol) s (triggerScript f)).2 = { s with
      afterBytes := f.afterBytes, afterDuration := f.afterDuration, triggerDirection := f.triggerDirection } := by
  have hshown := hs.trigger
  have hwanted := h.trigger
  have hbytes : ∀ n ∈ f.afterBytes, typed n := fun n hn => ht n (by simp [numbers, Option.mem_def.mp hn])
  have hwait : ∀ n ∈ f.afterDuration, typed n := fun n hn => ht n (by simp [numbers, Option.mem_def.mp hn])
  clear hs h ht
  obtain ⟨_, action, _, _, _, _, _, _, _, bytes, wait, towards⟩ := s
  obtain ⟨_, _, _, _, _, _, _, _, _, bytes', wait', towards'⟩ := f
  cases ha
  cases hfield : triggered protocol action with
  | false =>
    cases bytes <;> cases wait <;> simp [TriggerHolds, hfield] at hshown
    cases bytes' <;> cases wait' <;> simp [TriggerHolds, hfield] at hwanted
    simp [run, step, offers, triggerScript, hfield, hshown, hwanted]
  | true =>
    cases bytes' <;> cases wait' <;> simp [TriggerHolds, hfield, tcpDirection] at hwanted hbytes hwait
    all_goals simp [run, step, offers, edit, triggerScript, triggerOf, hfield, hwanted, hbytes, hwait]

end Edits

theorem run_script {typed : Int64 → Bool} {protocol : String} {f : Fault} (h : Filled protocol f)
    (ht : ∀ n ∈ numbers f, typed n) (g : Fault) :
    (run (step typed protocol) g (script f)).2 = f := by
  have hfirst : (step typed protocol g (.action f.action)).2 = defaultFault f.action protocol := by
    simp [step, offers, edit, h.action]
  have hkept {s : Fault} (hs : Filled protocol s) (edits : List Edit) :
      Filled protocol (run (step typed protocol) s edits).2 :=
    run_invariant (step typed protocol) (Filled protocol) (fun _ e hs => filled_step hs e) s hs edits
  have ha := default_action f.action protocol
  have hs := filled_default h.action
  -- one field after the other takes its value in the wanted fault, and the form stays filled
  have hdirection := @run_direction typed _ _ _ hs h ha
  replace hs := hkept hs [.direction f.direction, .phase f.phase]
  rw [hdirection] at hs
  have hnumber := step_parameter hs h ha ht
  replace hs := hkept hs [.parameter (number f)]
  rw [show (run (step typed protocol) _ [.parameter (number f)]).2 = _ from hnumber] at hs
  have hbody := @step_body typed _ _ _ hs h ha
  replace hs := hkept hs [.body (f.body.getD "")]
  rw [show (run (step typed protocol) _ [.body (f.body.getD "")]).2 = _ from hbody] at hs
  have htrigger := run_trigger hs h ha ht
  calc (run (step typed protocol) g (script f)).2
      = (run (step typed protocol) (step typed protocol (step typed protocol (run (step typed protocol)
          (step typed protocol g (.action f.action)).2 [.direction f.direction, .phase f.phase]).2
          (.parameter (number f))).2 (.body (f.body.getD ""))).2 (triggerScript f)).2 := rfl
    _ = f := by rw [hfirst, hdirection, hnumber, hbody, htrigger, ha]

def sampleRule : Rule :=
  ⟨"reset", true, ⟨"", "", "", "", none⟩, ⟨some Float64.one, none, none⟩, defaultFault "close_connection" "tcp"⟩

end Form
end Faultline
