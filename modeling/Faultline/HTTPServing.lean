import Faultline.EngineLaw
import Faultline.HTTPFlowRuns
import Faultline.RecorderQueue

/-! Flows that share a recorder. Its counters of active flows and faults are the numbers of
flows that have started and not finished, over every interleaving. -/
namespace Faultline.HTTP

/-! A step records at most one event. -/

def OneMore (s s' : Flow) : Prop := s'.events = s.events ∨ ∃ e, s'.events = s.events ++ [e]

theorem failed_events (c : Call) (s : Flow) (phase : FlowPhase) (err : Option FlowError) :
    (s.failed c phase err).events = s.events := by
  obtain ⟨outcome, e, terminal, disconnected, hfail⟩ := fail_eq c s err
  unfold Flow.failed
  rw [hfail]
  split_ifs
  · rfl
  · cases phase <;> rfl

theorem passed_events (s : Flow) (phase : FlowPhase) : (s.passed phase).events = s.events := by
  cases phase <;> rfl

theorem onApplied_events (s : Flow) : s.onApplied.events = s.events := by
  unfold Flow.onApplied
  split_ifs <;> rfl

theorem applyStep_events (c : Call) (s : Flow) (phase : FlowPhase) : OneMore s (applyStep c s phase) := by
  unfold applyStep
  simp only
  split_ifs
  · exact Or.inl (passed_events s phase)
  · exact Or.inr ⟨_, passed_events _ phase⟩
  · exact Or.inr ⟨_, failed_events c _ phase _⟩
  · exact Or.inr ⟨_, rfl⟩

theorem executedStep_events (c : Call) (s : Flow) (phase : FlowPhase) (err : Option FlowError) :
    (executedStep c s phase err).events = s.events := by
  unfold executedStep
  split
  · exact failed_events c _ phase _
  · split_ifs
    · exact failed_events c s phase none
    · exact passed_events s phase

theorem executorCall_events (c : Call) (s : Flow) (call : ExecutorCall) :
    (executorCall c s call).events = s.events := by
  have hclose : (s.closeConnection c).events = s.events := by
    obtain ⟨terminal, disconnected, heq⟩ := closeConnection_eq c s
    rw [heq]
  cases call with
  | applied => exact onApplied_events s
  | cancelUpstream => rfl
  | respond => rfl
  | closeConnection => exact hclose
  | endStream =>
    unfold executorCall
    simp only
    split_ifs
    · rfl
    · exact hclose

theorem copyStep_events (s : Flow) (length : ℕ) (a : SourceAnswer) :
    (copyStep s length a).events = s.events := by
  unfold copyStep
  split
  · rfl
  · split
    · rfl
    · split_ifs
      · exact onApplied_events _
      · rfl

theorem proxyStep_events (c : Call) (s : Flow) (i : ProxyInput) : (proxyStep c s i).events = s.events := by
  cases i with
  | response status hasBody =>
    unfold proxyStep
    simp only
    split_ifs
    · rfl
    · exact failed_events c _ .after _
    · rfl
  | copy length a => exact copyStep_events s length a
  | fails e => exact failed_events c s .after _
  | served => rfl
  | panics => rfl

theorem unwindStep_events (c : Call) (s : Flow) (now : ℕ) : OneMore s (unwindStep c s now) := by
  unfold unwindStep
  split
  · exact Or.inl rfl
  · split_ifs <;> exact Or.inl rfl
  · exact Or.inl rfl
  · exact Or.inl rfl
  · exact Or.inl rfl
  · exact Or.inl rfl
  · exact Or.inl rfl
  · exact Or.inr ⟨_, rfl⟩

theorem handlerStep_events (c : Call) (s : Flow) (i : HandlerInput) : OneMore s (handlerStep c s i) := by
  unfold handlerStep
  by_cases hrec : s.recording = true
  · rw [if_pos hrec]
    exact Or.inr ⟨_, rfl⟩
  · rw [if_neg hrec]
    split
    · exact Or.inr ⟨_, rfl⟩
    · refine Or.inl ?_
      unfold checkStep
      split_ifs <;> rfl
    · refine Or.inl ?_
      unfold slotStep
      split_ifs <;> rfl
    · refine Or.inr ?_
      unfold decideStep
      simp only
      split <;> exact ⟨_, rfl⟩
    · exact applyStep_events c s _
    · exact Or.inl (executorCall_events c s _)
    · split_ifs
      · exact Or.inl (onApplied_events _)
      · exact Or.inl rfl
    · exact Or.inl rfl
    · exact Or.inl (executedStep_events c s _ _)
    · refine Or.inl ?_
      unfold wrapStep
      simp only
      split_ifs <;> rfl
    · refine Or.inl ?_
      unfold wrapResponseStep
      simp only
      split_ifs <;> rfl
    · exact Or.inl (proxyStep_events c s _)
    · refine Or.inl ?_
      unfold servedStep
      split_ifs <;> rfl
    · exact unwindStep_events c s _
    · exact Or.inl rfl
    · split <;> exact Or.inl rfl
    · exact Or.inl rfl
    · exact Or.inl rfl
    · exact Or.inl rfl
    · split_ifs <;> exact Or.inl rfl
    · obtain ⟨outcome, err, kind, heq⟩ := settle_eq s
      rw [heq]
      exact Or.inl rfl
    · exact Or.inl rfl

theorem readerStep_events (s : Flow) (length : ℕ) (a : SourceAnswer) :
    OneMore s (readerStep s length a) := by
  unfold readerStep
  split
  · exact Or.inl rfl
  · split
    · exact Or.inl rfl
    · exact Or.inl rfl
    · split
      · exact Or.inl rfl
      · split_ifs <;> exact Or.inl rfl
    · split_ifs <;> exact Or.inl rfl
    · exact Or.inr ⟨_, rfl⟩
    · exact Or.inl rfl

theorem flowStep_events (c : Call) (s : Flow) (i : FlowInput) : OneMore s (flowStep c s i) := by
  cases i with
  | handler i => exact handlerStep_events c s i
  | reader length a => exact readerStep_events s length a
  | _ => exact Or.inl rfl

/-! What an event says about the flow. -/

def Flow.active (s : Flow) : Bool := !s.stage.isStart && !s.stage.isDone

def Flow.activeFault (s : Flow) : Bool := s.active && s.recorded

theorem active_iff {s : Flow} (h : FlowInv s) :
    s.active = true ↔ .flowStarted ∈ eventTypes s ∧ .flowFinished ∉ eventTypes s := by
  obtain ⟨decided, htypes, -⟩ := h.logged.types
  obtain ⟨hstarted, hfinished, -⟩ := mem_types s decided
  rw [eventTypes, htypes, hstarted, hfinished]
  simp [Flow.active]

theorem activeFault_iff {s : Flow} (h : FlowInv s) :
    s.activeFault = true ↔ s.active = true ∧ .faultApplied ∈ eventTypes s := by
  obtain ⟨decided, htypes, -⟩ := h.logged.types
  obtain ⟨-, -, happlied⟩ := mem_types s decided
  rw [eventTypes, htypes, happlied, Flow.activeFault, Bool.and_eq_true]
  constructor
  · rintro ⟨hactive, hrecorded⟩
    have hstart : s.stage.isStart = false := by
      simp only [Flow.active, Bool.and_eq_true, Bool.not_eq_true'] at hactive
      exact hactive.1
    exact ⟨hactive, hstart, hrecorded⟩
  · rintro ⟨hactive, -, hrecorded⟩
    exact ⟨hactive, hrecorded⟩

def Effect (e : Event) (s s' : Flow) : Prop :=
  match e.type with
  | .flowStarted => s.active = false ∧ s'.active = true ∧ s'.activeFault = s.activeFault
  | .faultApplied => s'.active = s.active ∧ s.activeFault = false ∧ s'.activeFault = true
  | .flowFinished => s.active = true ∧ s'.active = false ∧ s.activeFault = e.applied ∧
      s'.activeFault = false
  | _ => s'.active = s.active ∧ s'.activeFault = s.activeFault

section Effects
variable {s s' : Flow}

theorem same_effect (h : FlowInv s) (h' : FlowInv s') (hevents : s'.events = s.events) :
    s'.active = s.active ∧ s'.activeFault = s.activeFault := by
  have htypes : eventTypes s' = eventTypes s := by
    unfold eventTypes
    rw [hevents]
  have hactive : s'.active = s.active := by
    rw [Bool.eq_iff_iff, active_iff h', active_iff h, htypes]
  refine ⟨hactive, ?_⟩
  rw [Bool.eq_iff_iff, activeFault_iff h', activeFault_iff h, htypes, hactive]

theorem event_effect (c : Call) (h : FlowInv s) (h' : FlowInv s') (e : Event)
    (hevents : s'.events = s.events ++ [e]) : Effect e s s' := by
  have hlaw := flow_law (c := c) h
  have hlaw' := flow_law (c := c) h'
  have htypes : eventTypes s' = eventTypes s ++ [e.type] := by
    simp [eventTypes, hevents]
  have hnew : e.type ∉ eventTypes s := by
    obtain ⟨decided, ht, -⟩ := h'.logged.types
    have hnodup := types_nodup s' decided
    rw [← ht] at hnodup
    have hnodup' : (eventTypes s ++ [e.type]).Nodup := htypes ▸ hnodup
    rw [List.nodup_append] at hnodup'
    exact fun hm => hnodup'.2.2 _ hm _ (List.mem_singleton_self _) rfl
  have hstart' : s'.stage.isStart = false := by
    by_contra hs
    have hempty := hlaw'.silent (by simpa using hs)
    rw [hevents] at hempty
    simp at hempty
  have hfirst : .flowStarted ∈ eventTypes s' := by
    obtain ⟨rest, hrest, -⟩ := hlaw'.started hstart'
    rw [hrest]
    exact List.mem_cons_self
  -- an event after the end would not be the end
  have hlast (hne : e.type ≠ .flowFinished) : .flowFinished ∉ eventTypes s' := by
    by_cases hdone : s'.stage.isDone = true
    · obtain ⟨front, hfront, -⟩ := hlaw'.finished hdone
      rw [htypes] at hfront
      exact absurd (List.append_inj_right' hfront rfl) (by simpa using hne)
    · exact hlaw'.unfinished (by simpa using hdone)
  have hold (t : EventType) (ht : t ≠ e.type) : t ∈ eventTypes s' ↔ t ∈ eventTypes s := by
    rw [htypes]
    simp [ht]
  have hkeep (hs : e.type ≠ .flowStarted) (hf : e.type ≠ .flowFinished) : s'.active = s.active := by
    rw [Bool.eq_iff_iff, active_iff h', active_iff h, hold _ hs.symm, hold _ hf.symm]
  have hkeepFault (hs : e.type ≠ .flowStarted) (hf : e.type ≠ .flowFinished)
      (ha : e.type ≠ .faultApplied) : s'.activeFault = s.activeFault := by
    rw [Bool.eq_iff_iff, activeFault_iff h', activeFault_iff h, hold _ ha.symm, hkeep hs hf]
  unfold Effect
  cases ht : e.type with
  | flowStarted =>
    rw [ht] at hnew hlast hold
    have hinactive : s.active = false := by
      by_contra ha
      exact hnew ((active_iff h).mp (by simpa using ha)).1
    refine ⟨hinactive, (active_iff h').mpr ⟨hfirst, hlast (by decide)⟩, ?_⟩
    have hempty : eventTypes s = [] := by
      by_cases hs : s.stage.isStart = true
      · unfold eventTypes
        rw [hlaw.silent hs]
        rfl
      · obtain ⟨rest, hrest, -⟩ := hlaw.started (by simpa using hs)
        rw [hrest] at hnew
        exact absurd List.mem_cons_self hnew
    have hno : .faultApplied ∉ eventTypes s' := by
      rw [hold _ (by decide), hempty]
      exact List.not_mem_nil
    rw [Bool.eq_iff_iff, activeFault_iff h', activeFault_iff h, hinactive]
    simp [hno]
  | faultApplied =>
    rw [ht] at hnew hlast hold hkeep
    refine ⟨hkeep (by decide) (by decide), ?_, ?_⟩
    · by_contra ha
      exact hnew ((activeFault_iff h).mp (by simpa using ha)).2
    · rw [activeFault_iff h', active_iff h', htypes, ht]
      have hnot := hlast (by decide)
      rw [htypes, ht] at hfirst hnot
      exact ⟨⟨hfirst, hnot⟩, by simp⟩
  | flowFinished =>
    rw [ht] at hnew hold
    have hactive : s.active = true := (active_iff h).mpr ⟨(hold _ (by decide)).mp hfirst, hnew⟩
    have hinactive : s'.active = false := by
      by_contra ha
      have hnot := ((active_iff h').mp (by simpa using ha)).2
      rw [htypes, ht] at hnot
      simp at hnot
    have hreported := hlaw'.reported e (by rw [hevents]; simp) ht
    refine ⟨hactive, hinactive, ?_, ?_⟩
    · rw [Bool.eq_iff_iff, activeFault_iff h, hreported, hold _ (by decide)]
      simp [hactive]
    · by_contra ha
      have hactive' := ((activeFault_iff h').mp (by simpa using ha)).1
      rw [hinactive] at hactive'
      cases hactive'
  | decision =>
    rw [ht] at hkeep hkeepFault
    exact ⟨hkeep (by decide) (by decide), hkeepFault (by decide) (by decide) (by decide)⟩
  | faultReached =>
    rw [ht] at hkeep hkeepFault
    exact ⟨hkeep (by decide) (by decide), hkeepFault (by decide) (by decide) (by decide)⟩
  | control =>
    rw [ht] at hkeep hkeepFault
    exact ⟨hkeep (by decide) (by decide), hkeepFault (by decide) (by decide) (by decide)⟩

end Effects

/-! The decisions of the engine. -/

section Decisions
variable {lib : Library} {y : Yaml} {host : Host} {d : Document}

/-- What the engine selects for a proxy of an accepted document is the fault of one of its
rules. -/
theorem decision_fromRule (h : Accepted lib y host d) (p : Proxy) (hp : p ∈ d.config.proxies)
    (hhttp : isHTTP p.protocol = true) (calls : List Faultline.Call) (metadata : Metadata)
    (enabled : Bool) (decision : Decision)
    (hdecision : ((runCalls lib ⟨engineProxies lib d.config⟩ calls).2.decide lib p.id metadata
      enabled).1 = .ok decision) (hselected : decision.selected = true) : FromRule decision.fault := by
  obtain ⟨c, sources, root, hfinish⟩ := h.finished
  have hvalid := (finish_valid lib host c sources root d hfinish).2
  have htracks := runCalls_tracks lib d.config hvalid calls
  have hresult := (decide_tracks lib d.config hvalid _ _ ⟨p.id, metadata, enabled⟩ htracks).1
  rw [hdecision, resultAt, find_id_of_mem d.config hvalid p hp] at hresult
  simp only at hresult
  split at hresult
  · cases hresult
    exact absurd hselected Bool.false_ne_true
  · next r hr =>
    cases hresult
    have hrule : r ∈ p.ruleList := by
      split_ifs at hr
      exact List.mem_of_find?_eq_some hr
    refine ⟨lib, y, host, d, h, p, hp, hhttp, r, hrule, ?_⟩
    show r.fault = (rounds lib _ (newRuleState lib d.config.seed p.id r)).rule.fault
    rw [rounds_rule]
    rfl

/-- The call of `ServeHTTP` that the engine of an accepted document decides. -/
def decidedCall (h : Accepted lib y host d) (p : Proxy) (hp : p ∈ d.config.proxies)
    (hhttp : isHTTP p.protocol = true) (calls : List Faultline.Call) (metadata : Metadata)
    (enabled executor : Bool) (request : Request) : Call where
  protocol := p.protocol
  proxyID := p.id
  executor := executor
  request := request
  decision := ((runCalls lib ⟨engineProxies lib d.config⟩ calls).2.decide lib p.id metadata enabled).1
  decided decision := decision_fromRule h p hp hhttp calls metadata enabled decision

end Decisions

/-! The flows of a run. -/

structure Opening where
  call : Call
  flowID : String
  info : Info
  startedAt : ℕ

def Opening.flow (o : Opening) : Flow := Flow.new o.call o.flowID o.info o.startedAt

structure Serving (n : ℕ) where
  flows : Fin n → Flow
  counts : Recording.Counters

variable {n : ℕ}

def Serving.new (o : Fin n → Opening) : Serving n := ⟨fun k => (o k).flow, .zero⟩

def recordedBy (o : Fin n → Opening) (st : Serving n) (k : Fin n) (i : FlowInput) : List Event :=
  (flowStep (o k).call (st.flows k) i).events.drop (st.flows k).events.length

/-- A step of one flow. The recorder counts its events under a mutex. -/
def servingStep (o : Fin n → Opening) (st : Serving n) (i : Fin n × FlowInput) : Serving n where
  flows := Function.update st.flows i.1 (flowStep (o i.1).call (st.flows i.1) i.2)
  counts := (recordedBy o st i.1 i.2).foldl Recording.Counters.count st.counts

def serving (o : Fin n → Opening) (inputs : List (Fin n × FlowInput)) : Serving n :=
  (run (fun st i => ((), servingStep o st i)) (Serving.new o) inputs).2

def Serving.number (st : Serving n) (P : Flow → Bool) : ℕ := ∑ k, (P (st.flows k)).toNat

theorem number_step (o : Fin n → Opening) (st : Serving n) (k : Fin n) (i : FlowInput) (P : Flow → Bool) :
    (servingStep o st (k, i)).number P + (P (st.flows k)).toNat =
      st.number P + (P (flowStep (o k).call (st.flows k) i)).toNat := by
  have hsum (f : Fin n → Flow) : ∑ j, (P (f j)).toNat =
      (P (f k)).toNat + ∑ j ∈ Finset.univ.erase k, (P (f j)).toNat :=
    (Finset.add_sum_erase _ _ (Finset.mem_univ k)).symm
  unfold Serving.number
  rw [hsum, hsum st.flows]
  have hrest : ∑ j ∈ Finset.univ.erase k, (P ((servingStep o st (k, i)).flows j)).toNat =
      ∑ j ∈ Finset.univ.erase k, (P (st.flows j)).toNat := by
    apply Finset.sum_congr rfl
    intro j hj
    have hne : j ≠ k := Finset.ne_of_mem_erase hj
    simp [servingStep, Function.update_of_ne hne]
  have hself : (servingStep o st (k, i)).flows k = flowStep (o k).call (st.flows k) i := by
    simp [servingStep]
  rw [hrest, hself]
  omega

theorem number_pos (st : Serving n) (P : Flow → Bool) (k : Fin n) (h : P (st.flows k) = true) :
    0 < st.number P := by
  apply Finset.sum_pos' (fun _ _ => Nat.zero_le _)
  exact ⟨k, Finset.mem_univ k, by simp [h]⟩

structure Counted (st : Serving n) : Prop where
  inv : ∀ k, FlowInv (st.flows k)
  active : st.counts.active = UInt64.ofNat (st.number Flow.active)
  activeFaults : st.counts.activeFaults = UInt64.ofNat (st.number Flow.activeFault)

theorem recordedBy_eq (o : Fin n → Opening) (st : Serving n) (k : Fin n) (i : FlowInput) :
    (recordedBy o st k i = [] ∧
      (flowStep (o k).call (st.flows k) i).events = (st.flows k).events) ∨
    ∃ e, recordedBy o st k i = [e] ∧
      (flowStep (o k).call (st.flows k) i).events = (st.flows k).events ++ [e] := by
  rcases flowStep_events (o k).call (st.flows k) i with hsame | ⟨e, hmore⟩
  · refine Or.inl ⟨?_, hsame⟩
    rw [recordedBy, hsame, List.drop_length]
  · refine Or.inr ⟨e, ?_, hmore⟩
    rw [recordedBy, hmore, List.drop_left]

theorem ofNat_pred (a b : ℕ) (h : b + 1 = a) : UInt64.ofNat a - 1 = UInt64.ofNat b := by
  rw [← h, UInt64.ofNat_add]
  simp

theorem counted_step (o : Fin n → Opening) (st : Serving n) (k : Fin n) (i : FlowInput)
    (h : Counted st) : Counted (servingStep o st (k, i)) := by
  have hnext := flowStep_inv (c := (o k).call) (h.inv k) i
  have hactive := number_step o st k i Flow.active
  have hfault := number_step o st k i Flow.activeFault
  have hinv (j : Fin n) : FlowInv ((servingStep o st (k, i)).flows j) := by
    by_cases hj : j = k
    · subst hj
      simpa [servingStep] using hnext
    · simpa [servingStep, Function.update_of_ne hj] using h.inv j
  have hcounts : (servingStep o st (k, i)).counts =
      (recordedBy o st k i).foldl Recording.Counters.count st.counts := rfl
  rcases recordedBy_eq o st k i with ⟨hnone, hevents⟩ | ⟨e, hone, hevents⟩
  · obtain ⟨ha, hf⟩ := same_effect (h.inv k) hnext hevents
    rw [hnone] at hcounts
    refine ⟨hinv, ?_, ?_⟩
    · rw [hcounts, List.foldl_nil, h.active]
      congr 1
      rw [ha] at hactive
      omega
    · rw [hcounts, List.foldl_nil, h.activeFaults]
      congr 1
      rw [hf] at hfault
      omega
  · have heffect := event_effect (o k).call (h.inv k) hnext e hevents
    rw [hone, List.foldl_cons, List.foldl_nil] at hcounts
    unfold Effect at heffect
    unfold Recording.Counters.count at hcounts
    refine ⟨hinv, ?_, ?_⟩
    · rw [hcounts]
      cases ht : e.type with
      | flowStarted =>
        rw [ht] at heffect
        obtain ⟨hbefore, hafter, -⟩ := heffect
        rw [hbefore, hafter] at hactive
        simp only [Bool.toNat_false, Bool.toNat_true, Nat.add_zero] at hactive
        rw [hactive, UInt64.ofNat_add, ← h.active]
        rfl
      | flowFinished =>
        rw [ht] at heffect
        obtain ⟨hbefore, hafter, -⟩ := heffect
        rw [hbefore, hafter] at hactive
        simp only [Bool.toNat_false, Bool.toNat_true, Nat.add_zero] at hactive
        simp only
        rw [h.active]
        exact ofNat_pred _ _ hactive
      | faultApplied =>
        rw [ht] at heffect
        rw [heffect.1] at hactive
        simp only
        rw [h.active]
        congr 1
        omega
      | _ =>
        rw [ht] at heffect
        rw [heffect.1] at hactive
        simp only
        rw [h.active]
        congr 1
        omega
    · rw [hcounts]
      cases ht : e.type with
      | flowStarted =>
        rw [ht] at heffect
        rw [heffect.2.2] at hfault
        simp only
        rw [h.activeFaults]
        congr 1
        omega
      | flowFinished =>
        rw [ht] at heffect
        obtain ⟨-, -, hbefore, hafter⟩ := heffect
        rw [hbefore, hafter] at hfault
        simp only
        rw [h.activeFaults]
        cases ha : e.applied with
        | true =>
          rw [ha] at hfault
          exact ofNat_pred _ _ hfault
        | false =>
          rw [ha] at hfault
          simp only [Bool.toNat_false, Nat.add_zero] at hfault
          simp [hfault]
      | faultApplied =>
        rw [ht] at heffect
        obtain ⟨-, hbefore, hafter⟩ := heffect
        rw [hbefore, hafter] at hfault
        simp only [Bool.toNat_false, Bool.toNat_true, Nat.add_zero] at hfault
        rw [hfault, UInt64.ofNat_add, ← h.activeFaults]
        rfl
      | _ =>
        rw [ht] at heffect
        rw [heffect.2] at hfault
        simp only
        rw [h.activeFaults]
        congr 1
        omega

theorem serving_counted (o : Fin n → Opening) (inputs : List (Fin n × FlowInput)) :
    Counted (serving o inputs) := by
  apply run_invariant
  · intro st i h
    exact counted_step o st i.1 i.2 h
  · have hnone (P : Flow → Bool) (hP : ∀ k, P (o k).flow = false) :
        (Serving.new o).number P = 0 := by
      apply Finset.sum_eq_zero
      intro k _
      show (P (o k).flow).toNat = 0
      rw [hP]
      rfl
    refine ⟨fun k => new_inv _ _ _ _, ?_, ?_⟩
    · rw [hnone _ (fun _ => rfl)]
      rfl
    · rw [hnone _ (fun _ => rfl)]
      rfl

structure ServingLaw (o : Fin n → Opening) (st : Serving n) : Prop where
  flows : ∀ k, FlowLaw (o k).call (st.flows k)
  active : st.counts.active = UInt64.ofNat (st.number Flow.active)
  activeFaults : st.counts.activeFaults = UInt64.ofNat (st.number Flow.activeFault)
  /-- A counter that is taken down counts the flow that takes it down. -/
  falls : ∀ k i e, e ∈ recordedBy o st k i → e.type = .flowFinished →
    0 < st.number Flow.active ∧ (e.applied = true → 0 < st.number Flow.activeFault)
  /-- The counters are exact up to the size of their type. -/
  precise : n < 2^64 → st.counts.active.toNat = st.number Flow.active ∧
    st.counts.activeFaults.toNat = st.number Flow.activeFault
  returns : (∀ k, (st.flows k).stage = .start ∨ (st.flows k).stage = .done) →
    st.counts.active = 0 ∧ st.counts.activeFaults = 0

theorem number_le (st : Serving n) (P : Flow → Bool) : st.number P ≤ n := by
  have hsum : st.number P ≤ ∑ _k : Fin n, 1 := Finset.sum_le_sum fun k _ => Bool.toNat_le _
  simpa using hsum

/-- Every flow records its events in order, whatever is interleaved with it, and the recorder
counts the active ones. -/
theorem serving_law (o : Fin n → Opening) (inputs : List (Fin n × FlowInput)) :
    ServingLaw o (serving o inputs) := by
  have h := serving_counted o inputs
  refine ⟨fun k => flow_law (h.inv k), h.active, h.activeFaults, ?_, ?_, ?_⟩
  · intro k i e he htype
    rcases recordedBy_eq o (serving o inputs) k i with ⟨hnone, -⟩ | ⟨e', hone, hevents⟩
    · rw [hnone] at he
      cases he
    · rw [hone, List.mem_singleton] at he
      subst he
      have heffect := event_effect (o k).call (h.inv k) (flowStep_inv (h.inv k) i) e hevents
      unfold Effect at heffect
      rw [htype] at heffect
      obtain ⟨hactive, -, hfault, -⟩ := heffect
      refine ⟨number_pos _ _ k hactive, fun happlied => ?_⟩
      exact number_pos _ _ k (hfault.trans happlied)
  · intro hn
    rw [h.active, h.activeFaults]
    have hsmall (P : Flow → Bool) : (serving o inputs).number P < 2^64 :=
      (number_le _ P).trans_lt hn
    exact ⟨toNat_ofNat_lt _ (hsmall _), toNat_ofNat_lt _ (hsmall _)⟩
  · intro hall
    have hnone (k : Fin n) : ((serving o inputs).flows k).active = false := by
      unfold Flow.active
      rcases hall k with hs | hs <;> rw [hs] <;> rfl
    have hzero (P : Flow → Bool) (hP : ∀ s, P s = true → s.active = true) :
        (serving o inputs).number P = 0 := by
      apply Finset.sum_eq_zero
      intro k _
      have hk : P ((serving o inputs).flows k) = false := by
        by_contra hp
        have hactive := hP _ (by simpa using hp)
        rw [hnone k] at hactive
        cases hactive
      rw [hk]
      rfl
    rw [h.active, h.activeFaults, hzero _ (fun _ hs => hs), hzero _ (fun s hs => ?_)]
    · exact ⟨rfl, rfl⟩
    · unfold Flow.activeFault at hs
      exact (Bool.and_eq_true _ _ ▸ hs).1

end Faultline.HTTP
