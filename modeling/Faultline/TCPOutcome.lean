import Faultline.ConfigValidate
import Faultline.TCPLifecycleMoves

/-! The outcome of a TCP flow against its fault. `serve` reads `active` when forwarding is over and
calls `stop` after that, so a timer that fires in between applies a fault which the outcome misses. -/
namespace Faultline.TCP

section Step
variable {s : Lifecycle}

theorem callStep_active (s : Lifecycle) (g : Caller) :
    (callStep s g).relay.active = s.relay.active ∨ s.once = .running g .store := by
  have hcase := callStep_cases s g
  generalize callStep s g = s' at hcase
  cases hcase with
  | control hrelay => exact .inl (by rw [hrelay])
  | acts act ho hacts =>
    cases act with
    | store => exact .inr ho
    | close =>
      simp only [actStep]
      split_ifs <;> exact .inl rfl
    | arm =>
      simp only [actStep]
      split_ifs <;> exact .inl rfl
    | lock => simp [Act.acted] at hacts
    | _ => exact .inl rfl

theorem lifeStep_active (i : LifeInput) (hl : Lived s) :
    (lifeStep s i).relay.active = s.relay.active ∨ ∃ g, s.once = .running g .store := by
  have hcall (g : Caller) : (callStep s g).relay.active = s.relay.active ∨ ∃ g, s.once = .running g .store :=
    (callStep_active s g).imp_right (fun ho => ⟨g, ho⟩)
  cases i with
  | main a now =>
    simp only [lifeStep, lifeMain]
    cases hmain : s.main with
    | serve =>
      rcases hl.serving hmain with hwaits | ⟨b, hb⟩
      · rw [(serveStep_wait a now hwaits).1]
        exact .inl (mainStep_active hwaits a now).1
      · simp only [serveStep, hb]
        split_ifs <;> exact .inl rfl
    | start =>
      simp only [startStep]
      split
      · exact .inl rfl
      · split_ifs <;> exact .inl rfl
    | starting =>
      simp only
      split_ifs
      · exact hcall _
      · exact .inl rfl
    | forward =>
      simp only
      split <;> exact .inl rfl
    | stop outcome =>
      simp only
      split_ifs <;> exact .inl rfl
    | _ => exact .inl rfl
  | pump d a =>
    simp only [lifeStep]
    split_ifs
    · rcases pumpCall_cases s d a with ⟨-, heq⟩ | ⟨-, hrelay⟩
      · rw [heq]
        exact hcall _
      · rw [hrelay]
        exact .inl rfl
    · exact .inl rfl
  | timer =>
    simp only [lifeStep]
    split_ifs
    · exact hcall _
    · exact .inl rfl
  | delayOver => exact .inl rfl
  | cancel => exact .inl rfl
  | _ =>
    simp only [lifeStep]
    split_ifs <;> exact .inl rfl

theorem callStep_events (s : Lifecycle) (g : Caller) : (callStep s g).relay.events = s.relay.events ∨
    (callStep s g).relay.events = s.relay.events ++ [s.relay.event.asApplied] := by
  have hcase := callStep_cases s g
  generalize callStep s g = s' at hcase
  cases hcase with
  | control hrelay => exact .inl (by rw [hrelay])
  | acts act ho hacts =>
    cases act with
    | record => exact .inr rfl
    | close =>
      simp only [actStep]
      split_ifs <;> exact .inl rfl
    | arm =>
      simp only [actStep]
      split_ifs <;> exact .inl rfl
    | lock => simp [Act.acted] at hacts
    | _ => exact .inl rfl

theorem lifeStep_finished (s : Lifecycle) (i : LifeInput) (h : ∀ a now, i ≠ .main a now) :
    ∀ e ∈ (lifeStep s i).relay.events, e.type = .flowFinished → e ∈ s.relay.events := by
  have hcall (g : Caller) : ∀ e ∈ (callStep s g).relay.events, e.type = .flowFinished → e ∈ s.relay.events := by
    intro e hmem htype
    rcases callStep_events s g with heq | heq
    · rwa [heq] at hmem
    · rw [heq, List.mem_append, List.mem_singleton] at hmem
      rcases hmem with hmem | rfl
      · exact hmem
      · cases htype
  cases i with
  | main a now => exact absurd rfl (h a now)
  | pump d a =>
    simp only [lifeStep]
    split_ifs
    · rcases pumpCall_cases s d a with ⟨-, heq⟩ | ⟨-, hrelay⟩
      · rw [heq]
        exact hcall _
      · rw [hrelay]
        exact fun _ hmem _ => hmem
    · exact fun _ hmem _ => hmem
  | timer =>
    simp only [lifeStep]
    split_ifs
    · exact hcall _
    · exact fun _ hmem _ => hmem
  | delayOver => exact fun _ hmem _ => hmem
  | cancel => exact fun _ hmem _ => hmem
  | _ =>
    simp only [lifeStep]
    split_ifs <;> exact fun _ hmem _ => hmem

theorem Lived.unfinished (h : Lived s) (hmain : s.main ≠ .returned) :
    ∀ e ∈ s.relay.events, e.type ≠ .flowFinished := by
  intro e hmem htype
  obtain ⟨fs, hfs, htypes⟩ := h.shape
  have hin : .flowFinished ∈ s.types := List.mem_map.mpr ⟨e, hmem, htype⟩
  rw [htypes, if_neg hmain] at hin
  simp only [List.mem_cons, List.not_mem_nil, or_false] at hfs
  rcases hfs with rfl | rfl <;> simp at hin

/-- From `stop` on, the store in `activate` needs a mutex that `stop` has not taken yet. -/
theorem stored_before_stop (h : Lived s) {g : Caller} (ho : s.once = .running g .store)
    {outcome : String} (hsample : s.main.sample = some outcome) : s.main = .stop outcome := by
  cases hmain : s.main with
  | stop o =>
    rw [hmain] at hsample
    cases hsample
    rfl
  | stopping o =>
    have hact := h.locked.activation.mpr ⟨g, .store, ho, rfl⟩
    rw [h.locked.stop.mpr ⟨o, hmain⟩] at hact
    cases hact
  | finish o =>
    have hlive := h.live_main ho rfl
    rw [hmain] at hlive
    cases hlive
  | _ =>
    rw [hmain] at hsample
    cases hsample

theorem serving_unapplied (h : Lived s) (hmain : s.main = .serve) (hfault : s.relay.fault.isSome = true) :
    s.relay.applied = false := by
  have hfresh := (h.uncalled (.inr hmain)).1
  rw [← Bool.not_eq_true, h.applied]
  rintro (hmem | ⟨g, ho⟩)
  · exact h.early hfault (.inl hfresh) hmem
  · rw [hfresh] at ho
    cases ho

/-- When `stop` has returned, the fault is active if and only if it was applied. -/
theorem applied_iff_active (h : Lived s) (ha : Acting s) (hfault : s.relay.fault.isSome = true)
    (hended : s.main.ended = true) : s.relay.applied = true ↔ s.relay.active = true := by
  refine ⟨ha.applied hfault, ?_⟩
  intro hactive
  rcases ha.pending hactive with happlied | ⟨g, ho⟩
  · exact happlied
  · have hlive := h.live_main ho rfl
    rw [hended] at hlive
    cases hlive

/-- The fault becomes active after `serve` has read `active` and before `stop` gets the mutex. -/
def Lately (s : Lifecycle) (i : LifeInput) : Prop :=
  (∃ outcome, s.main = .stop outcome) ∧ s.relay.active = false ∧ (lifeStep s i).relay.active = true

/-- The outcome that `serve` has settled on or recorded, given whether the fault was late. -/
structure Settled (action : String) (late : Prop) (s : Lifecycle) : Prop where
  before : s.main.sample = none → s.main ≠ .returned → ¬ late
  sampled : ∀ outcome, s.main.sample = some outcome →
    outcome = action ∧ s.relay.active = true ∧ ¬ late ∨
      outcome = "forwarded" ∧ (s.relay.active = true ↔ late)
  finished : ∀ e ∈ s.relay.events, e.type = .flowFinished →
    e.outcome = action ∧ e.applied = true ∧ ¬ late ∨
      e.outcome = "forwarded" ∧ (e.applied = true ↔ late) ∨
      e.outcome = "dial_error" ∧ e.applied = false ∧ ¬ late

theorem settled_other {action : String} {late : Prop} (i : LifeInput) (hi : ∀ a now, i ≠ .main a now)
    (hl : Lived s) (ha : Acting s) (hs : Staged s) (h : Settled action late s) :
    Settled action (late ∨ Lately s i) (lifeStep s i) := by
  have hmain := lifeStep_main s i hi
  have hadvances := moves_advances (lifeStep_moves i hl ha hs)
  refine ⟨?_, ?_, ?_⟩
  · rw [hmain]
    rintro hsample hreturned (hlate | ⟨⟨o, ho⟩, _⟩)
    · exact h.before hsample hreturned hlate
    · rw [ho] at hsample
      cases hsample
  · rw [hmain]
    intro outcome hsample
    rcases h.sampled outcome hsample with ⟨hact, hactive, hnot⟩ | ⟨hforward, hiff⟩
    · refine .inl ⟨hact, hadvances.active hactive, ?_⟩
      rintro (hlate | ⟨_, hidle, _⟩)
      · exact hnot hlate
      · rw [hactive] at hidle
        cases hidle
    · refine .inr ⟨hforward, ?_⟩
      rcases lifeStep_active i hl with hsame | ⟨g, ho⟩
      · rw [hsame, hiff]
        refine ⟨.inl, ?_⟩
        rintro (hlate | ⟨_, hidle, hactive⟩)
        · exact hlate
        · rw [hsame, hidle] at hactive
          cases hactive
      · have hstop := stored_before_stop hl ho hsample
        by_cases hactive : s.relay.active = true
        · exact ⟨fun _ => .inl (hiff.mp hactive), fun _ => hadvances.active hactive⟩
        · refine ⟨fun hnow => .inr ⟨⟨outcome, hstop⟩, by simpa using hactive, hnow⟩, ?_⟩
          rintro (hlate | hlately)
          · exact absurd (hiff.mpr hlate) hactive
          · exact hlately.2.2
  · intro e hmem htype
    have hearlier := lifeStep_finished s i hi e hmem htype
    -- the flow has returned, so that nothing is late any more
    have hreturned : s.main = .returned := by
      by_contra hnot
      exact hl.unfinished hnot e hearlier htype
    have hnone : Lately s i ↔ False := by
      refine iff_false_intro ?_
      rintro ⟨⟨o, ho⟩, _⟩
      rw [hreturned] at ho
      cases ho
    rw [hnone, or_false]
    exact h.finished e hearlier htype

theorem settled_main {f : Fault} {late : Prop} (a : Answer) (now : ℕ) (hl : Lived s) (ha : Acting s)
    (hf : s.relay.fault = some f) (h : Settled f.action late s) :
    Settled f.action late (lifeMain s a now) := by
  have hsome : s.relay.fault.isSome = true := by rw [hf]; rfl
  have hnone (hmain : s.main ≠ .returned) (s' : Lifecycle) (hevents : s'.relay.events = s.relay.events)
      (hbefore : s'.main.sample = none → s'.main ≠ .returned → ¬ late)
      (hsampled : ∀ outcome, s'.main.sample = some outcome →
        outcome = f.action ∧ s'.relay.active = true ∧ ¬ late ∨
          outcome = "forwarded" ∧ (s'.relay.active = true ↔ late)) : Settled f.action late s' := by
    refine ⟨hbefore, hsampled, ?_⟩
    rw [hevents]
    exact fun e hmem htype => absurd htype (hl.unfinished hmain e hmem)
  unfold lifeMain
  cases hmain : s.main with
  | serve =>
    have hnot : ¬ late := h.before (by rw [hmain]; rfl) (by simp [hmain])
    rcases hl.serving hmain with hwaits | ⟨b, hb⟩
    · rw [(hl.waiting hwaits).2.1] at hf
      cases hf
    · simp only [serveStep, hb]
      split_ifs
      · refine ⟨by simp, by simp [Main.sample], ?_⟩
        intro e hmem htype
        rcases List.mem_append.mp hmem with hmem | hmem
        · exact absurd htype (hl.unfinished (by simp [hmain]) e hmem)
        · rw [List.mem_singleton.mp hmem]
          exact .inr (.inr ⟨rfl, serving_unapplied hl hmain hsome, hnot⟩)
      · exact hnone (by simp [hmain]) _ rfl (fun _ _ => hnot) (by simp [Main.sample])
  | start =>
    have hnot : ¬ late := h.before (by rw [hmain]; rfl) (by simp [hmain])
    simp only [startStep]
    split
    · exact hnone (by simp [hmain]) _ rfl (fun _ _ => hnot) (by simp [Main.sample])
    · split_ifs <;> exact hnone (by simp [hmain]) _ rfl (fun _ _ => hnot) (by simp [Main.sample])
  | starting =>
    have hnot : ¬ late := h.before (by rw [hmain]; rfl) (by simp [hmain])
    simp only
    split_ifs
    · have hmain' := (callStep_kept s .start).1.trans hmain
      refine ⟨fun _ _ => hnot, by simp [hmain', Main.sample], ?_⟩
      exact fun e hmem htype => absurd htype
        ((callStep_lived hl ‹_›).unfinished (by simp [hmain']) e hmem)
    · exact hnone (by simp [hmain]) _ rfl (fun _ _ => hnot) (by simp [Main.sample])
  | forward =>
    have hnot : ¬ late := h.before (by rw [hmain]; rfl) (by simp [hmain])
    simp only
    by_cases hdone : (s.pumped .clientToUpstream && s.pumped .upstreamToClient) = true
    · rw [if_pos hdone]
      refine hnone (by simp [hmain]) _ rfl (fun _ _ => hnot) ?_
      intro outcome hsample
      simp only [hf, Main.sample, Option.some.injEq] at hsample
      by_cases hactive : s.relay.active = true
      · rw [if_pos hactive] at hsample
        exact .inl ⟨hsample.symm, hactive, hnot⟩
      · rw [if_neg hactive] at hsample
        exact .inr ⟨hsample.symm, iff_of_false hactive hnot⟩
    · rw [if_neg hdone]
      exact h
  | stop outcome =>
    have hsampled := h.sampled outcome (by rw [hmain]; rfl)
    simp only
    split_ifs
    · refine hnone (by simp [hmain]) _ rfl (fun hs => by cases hs) ?_
      intro o ho
      cases ho
      exact hsampled
    · exact h
  | stopping outcome =>
    have hsampled := h.sampled outcome (by rw [hmain]; rfl)
    refine hnone (by simp [hmain]) _ rfl (fun hs => by cases hs) ?_
    intro o ho
    cases ho
    exact hsampled
  | finish outcome =>
    have hsampled := h.sampled outcome (by rw [hmain]; rfl)
    have hiff := applied_iff_active hl ha hsome (by rw [hmain]; rfl)
    refine ⟨by simp, by simp [Main.sample], ?_⟩
    intro e hmem htype
    rcases List.mem_append.mp hmem with hmem | hmem
    · exact absurd htype (hl.unfinished (by simp [hmain]) e hmem)
    · rw [List.mem_singleton.mp hmem]
      rcases hsampled with ⟨hact, hactive, hnot⟩ | ⟨hforward, hlate⟩
      · exact .inl ⟨hact, hiff.mpr hactive, hnot⟩
      · exact .inr (.inl ⟨hforward, hiff.trans hlate⟩)
  | returned => exact h

theorem lately_main (a : Answer) (now : ℕ) : ¬ Lately s (.main a now) := by
  rintro ⟨⟨o, ho⟩, hidle, hactive⟩
  simp only [lifeStep, lifeMain, ho] at hactive
  split_ifs at hactive
  · rw [hidle] at hactive
    cases hactive
  · rw [hidle] at hactive
    cases hactive

theorem settled_step {f : Fault} {late : Prop} (i : LifeInput) (hl : Lived s) (ha : Acting s) (hs : Staged s)
    (hf : s.relay.fault = some f) (h : Settled f.action late s) :
    Settled f.action (late ∨ Lately s i) (lifeStep s i) := by
  cases i with
  | main a now =>
    rw [iff_false_intro (lately_main a now), or_false]
    exact settled_main a now hl ha hf h
  | _ => exact settled_other _ (by simp) hl ha hs h

end Step

def Late (s : Lifecycle) (inputs : List LifeInput) : Prop :=
  ∃ earlier i later, inputs = earlier ++ i :: later ∧ Lately (lifecycle s earlier) i

theorem late_nil (s : Lifecycle) : ¬ Late s [] := by
  rintro ⟨earlier, i, later, heq, _⟩
  simp at heq

theorem late_snoc (s : Lifecycle) (inputs : List LifeInput) (i : LifeInput) :
    Late s (inputs ++ [i]) ↔ Late s inputs ∨ Lately (lifecycle s inputs) i := by
  constructor
  · rintro ⟨earlier, j, later, heq, hlately⟩
    rcases List.eq_nil_or_concat later with rfl | ⟨front, last, rfl⟩
    · obtain ⟨rfl, hlast⟩ := List.append_inj' heq rfl
      rw [List.singleton_inj.mp hlast]
      exact .inr hlately
    · rw [List.concat_eq_append, ← List.cons_append, ← List.append_assoc] at heq
      exact .inl ⟨earlier, j, front, (List.append_inj' heq rfl).1, hlately⟩
  · rintro (⟨earlier, j, later, rfl, hlately⟩ | hlately)
    · exact ⟨earlier, j, later ++ [i], by simp, hlately⟩
    · exact ⟨inputs, i, [], rfl, hlately⟩

theorem settled_lifecycle {s : Lifecycle} {stream : Direction → Bytes} {f : Fault} (ht : Tracked stream s)
    (hf : s.relay.fault = some f) (h : Settled f.action False s) (inputs : List LifeInput) :
    Settled f.action (Late s inputs) (lifecycle s inputs) := by
  induction inputs using List.reverseRecOn with
  | nil =>
    rw [iff_false_intro (late_nil s)]
    exact h
  | append_singleton inputs i ih =>
    have hnow := tracked_lifecycle ht inputs
    have hfault : (lifecycle s inputs).relay.fault = some f := by
      unfold Relay.fault at hf ⊢
      rwa [lifecycle_decision]
    rw [lifecycle_snoc, late_snoc]
    exact settled_step i hnow.lived hnow.acting hnow.staged hfault ih

structure Agrees (action : String) (e : Event) : Prop where
  action : e.outcome = action ↔ e.applied = true
  other : e.applied = false → e.outcome = "forwarded" ∨ e.outcome = "dial_error"

theorem validateTCPRule_transfer {r r' : Rule} {path : String} (h : validateTCPRule r path = .ok r')
    (hphase : r'.fault.phase = tcpOnTransfer) : r'.fault.action = "close_connection" ∨
      r'.fault.action = "hold" ∨ r'.fault.action = "throttle" := by
  simp only [validateTCPRule, bind_eq_ok, reject_eq_ok, exists_const, pure_eq_ok] at h
  obtain ⟨-, select, -, -, -, -, -, -, -, u, haction, rfl⟩ := h
  simp only at hphase ⊢
  unfold validateTCPAction at haction
  split_ifs at haction with hdelay hclose hhold hthrottle
  · rw [reject_eq_ok] at haction
    exact absurd (.inl (by rw [hphase]; decide)) haction
  · exact .inl hclose
  · exact .inr (.inl hhold)
  · exact .inr (.inr hthrottle)
  · cases haction

/-- The outcome of a flow with a fault in the transfer phase agrees with what was applied, unless the
fault becomes active between the read of `active` and `stop`. -/
theorem outcome_agrees (r r' : Rule) (path : String) (hrule : validateTCPRule r path = .ok r')
    (decision : Decision) (hfault : decision.fault = r'.fault) (hselected : decision.selected = true)
    (hphase : r'.fault.phase = tcpOnTransfer) (info : Info) (flowID proxyID : String) (now : ℕ)
    (client upstream : Bytes) (inputs : List LifeInput) :
    let s := Lifecycle.start (.start decision info flowID proxyID now client upstream)
    (∀ e ∈ (lifecycle s inputs).relay.events, e.type = .flowFinished → Agrees decision.fault.action e) ↔
      ((lifecycle s inputs).main = .returned → ¬ Late s inputs) := by
  intro s
  have haction := validateTCPRule_transfer hrule hphase
  rw [← hfault] at haction
  have hnames : decision.fault.action ≠ "delay_connect" ∧ decision.fault.action ≠ "forwarded" ∧
      decision.fault.action ≠ "dial_error" := by
    rcases haction with h | h | h <;> rw [h] <;> decide
  have hf : s.relay.fault = some decision.fault := by
    simp [s, Lifecycle.start, Relay.start, Relay.fault, hselected, hnames.1]
  have htracked := tracked_start decision info flowID proxyID now client upstream
  have hstart : Settled decision.fault.action False s := by
    refine ⟨fun _ _ => id, by simp [s, Lifecycle.start, Main.sample], ?_⟩
    exact fun e hmem htype => absurd htype (htracked.lived.unfinished (by simp [Lifecycle.start]) e hmem)
  have hsettled := settled_lifecycle htracked hf hstart inputs
  have hlived := (tracked_lifecycle htracked inputs).lived
  constructor
  · intro hagrees hreturned hlate
    -- the end that was recorded says "forwarded", and that the fault was applied
    have hend : .flowFinished ∈ (lifecycle s inputs).types := by
      obtain ⟨fs, _, htypes⟩ := hlived.shape
      rw [htypes, if_pos hreturned]
      exact List.mem_append_right _ (List.mem_singleton_self _)
    obtain ⟨e, hmem, htype⟩ := List.mem_map.mp hend
    have he := hagrees e hmem htype
    rcases hsettled.finished e hmem htype with ⟨_, _, hnot⟩ | ⟨hforward, hiff⟩ | ⟨_, _, hnot⟩
    · exact hnot hlate
    · have hout := he.action.mpr (hiff.mpr hlate)
      exact hnames.2.1 (hout.symm.trans hforward)
    · exact hnot hlate
  · intro hnever e hmem htype
    have hreturned : (lifecycle s inputs).main = .returned := by
      by_contra hnot
      exact hlived.unfinished hnot e hmem htype
    have hnot := hnever hreturned
    rcases hsettled.finished e hmem htype with ⟨hout, happlied, _⟩ | ⟨hforward, hiff⟩ | ⟨herror, happlied, _⟩
    · exact ⟨iff_of_true hout happlied, fun hno => absurd happlied (by simp [hno])⟩
    · have happlied : ¬ e.applied = true := fun hyes => hnot (hiff.mp hyes)
      refine ⟨iff_of_false ?_ happlied, fun _ => .inl hforward⟩
      rw [hforward]
      exact hnames.2.1.symm
    · refine ⟨iff_of_false ?_ (by simp [happlied]), fun _ => .inr herror⟩
      rw [herror]
      exact hnames.2.2.symm

def sampleLateRule : Rule :=
  { Rule.zero with
    id := "slow"
    enabled := true
    select := { Selector.zero with nth := some 1 }
    fault := { Fault.zero with
      phase := "on_transfer"
      action := "throttle"
      direction := "client_to_upstream"
      bytesPerSecond := some 1000
      afterDuration := some 1000000000 } }

def sampleLateDecision : Decision := ⟨"tcp", "slow", 1, true, sampleLateRule.select, sampleLateRule.fault⟩

def sampleLateStart : Lifecycle :=
  .start (.start sampleLateDecision ⟨"run", 1, true, 0, 0, 0⟩ "flow" "tcp" 0 [] [])

/-- Both sides close at once; the timer fires when `serve` has read `active`, and its function runs
before `stop` gets the mutex. -/
def sampleLateInputs : List LifeInput :=
  List.replicate 2 (.main ⟨0, false, false⟩ 1) ++
    List.replicate 3 (.pump .clientToUpstream ⟨0, true, false⟩) ++
    List.replicate 3 (.pump .upstreamToClient ⟨0, true, false⟩) ++
    [.main ⟨0, false, false⟩ 2, .timerFires] ++ List.replicate 10 .timer ++
    List.replicate 3 (.main ⟨0, false, false⟩ 3)

theorem outcome_agrees_late :
    validateTCPRule sampleLateRule "proxies[0].rules[0]" = .ok sampleLateRule ∧
      ((∀ e ∈ (lifecycle sampleLateStart sampleLateInputs).relay.events, e.type = .flowFinished →
          Agrees "throttle" e) ↔
        ((lifecycle sampleLateStart sampleLateInputs).main = .returned →
          ¬ Late sampleLateStart sampleLateInputs)) := by
  have hrule : validateTCPRule sampleLateRule "proxies[0].rules[0]" = .ok sampleLateRule := by
    decide +kernel
  exact ⟨hrule, outcome_agrees sampleLateRule sampleLateRule _ hrule sampleLateDecision rfl rfl rfl
    ⟨"run", 1, true, 0, 0, 0⟩ "flow" "tcp" 0 [] [] sampleLateInputs⟩

theorem late_timer_outcome :
    validateTCPRule sampleLateRule "proxies[0].rules[0]" = .ok sampleLateRule ∧
      ∃ e ∈ (lifecycle sampleLateStart sampleLateInputs).relay.events, e.type = .flowFinished ∧
        e.applied = true ∧ e.outcome = "forwarded" ∧ ¬ Agrees sampleLateDecision.fault.action e := by
  have hrun : ∃ e ∈ (lifecycle sampleLateStart sampleLateInputs).relay.events, e.type = .flowFinished ∧
      e.applied = true ∧ e.outcome = "forwarded" := by
    decide +kernel
  obtain ⟨e, hmem, htype, happlied, hforward⟩ := hrun
  refine ⟨by decide +kernel, e, hmem, htype, happlied, hforward, ?_⟩
  intro hagrees
  have hthrottle := hagrees.action.mpr happlied
  rw [hforward] at hthrottle
  exact absurd hthrottle (by decide)

end Faultline.TCP
