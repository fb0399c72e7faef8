import Faultline.TCPLifecycleStep

/-! What holds of a TCP flow at every moment, whichever goroutine runs next: the fault is
recorded at most once and before the end, and nothing happens after `stop`. -/
namespace Faultline.TCP

section Lived
variable {s : Lifecycle}

/-- `stop` has returned, so that a call of `activate` does nothing any more. -/
def Ended (s : Lifecycle) : Prop := s.main.ended = true

theorem callStep_ended {g : Caller} (h : Lived s) (he : Ended s) (hg : s.calling g = true) :
    (callStep s g).outward = s.outward ∧ (callStep s g).main = s.main ∧
      (callStep s g).relay = s.relay := by
  have hf : s.finished = true := (h.ended he).resolve_right (fun hu => by
    rw [hu.2.1 g] at hg
    cases hg)
  unfold callStep
  split
  · exact ⟨rfl, rfl, rfl⟩
  · rename_i g' act ho
    have hlive := h.stopped hf g' act ho
    split_ifs
    · cases act with
      | lock =>
        simp only [actStep]
        split_ifs <;> exact ⟨rfl, rfl, rfl⟩
      | check => exact ⟨rfl, rfl, rfl⟩
      | unlock => exact ⟨rfl, rfl, rfl⟩
      | leave => exact ⟨rfl, rfl, rfl⟩
      | _ => cases hlive
    · exact ⟨rfl, rfl, rfl⟩
  · exact ⟨rfl, rfl, rfl⟩

theorem lifeStep_ended (i : LifeInput) (h : Lived s) (he : Ended s) :
    Ended (lifeStep s i) ∧ (lifeStep s i).outward = s.outward ∧
      (lifeStep s i).relay.active = s.relay.active ∧ (lifeStep s i).relay.applied = s.relay.applied := by
  cases i with
  | main a now =>
    simp only [lifeStep, lifeMain]
    cases hmain : s.main with
    | finish outcome => exact ⟨rfl, rfl, rfl, rfl⟩
    | returned => exact ⟨he, rfl, rfl, rfl⟩
    | _ =>
      rw [Ended, hmain] at he
      cases he
  | pump d a =>
    have hmain : s.main ≠ .forward := by
      intro hm
      rw [Ended, hm] at he
      cases he
    have hstep : lifeStep s (.pump d a) = s := if_neg hmain
    rw [hstep]
    exact ⟨he, rfl, rfl, rfl⟩
  | timerFires =>
    simp only [lifeStep]
    split_ifs <;> exact ⟨he, rfl, rfl, rfl⟩
  | timer =>
    simp only [lifeStep]
    split_ifs with hcalling
    · obtain ⟨h1, h2, h3⟩ := callStep_ended h he hcalling
      rw [Ended, h1, h2, h3]
      exact ⟨he, rfl, rfl, rfl⟩
    · exact ⟨he, rfl, rfl, rfl⟩
  | holdFires =>
    simp only [lifeStep]
    split_ifs <;> exact ⟨he, rfl, rfl, rfl⟩
  | holdCloses =>
    simp only [lifeStep]
    split_ifs <;> exact ⟨he, rfl, rfl, rfl⟩
  | delayOver => exact ⟨he, rfl, rfl, rfl⟩
  | cancel => exact ⟨he, rfl, rfl, rfl⟩

theorem lifecycle_lived (h : Lived s) (inputs : List LifeInput) : Lived (lifecycle s inputs) :=
  run_invariant _ Lived (fun _ i hs => lifeStep_lived i hs) s h inputs

theorem lifecycle_ended (h : Lived s) (he : Ended s) (inputs : List LifeInput) :
    (lifecycle s inputs).outward = s.outward ∧ (lifecycle s inputs).relay.active = s.relay.active ∧
      (lifecycle s inputs).relay.applied = s.relay.applied := by
  have hrun := run_invariant (fun s i => ((), lifeStep s i))
    (fun s' => Lived s' ∧ Ended s' ∧ s'.outward = s.outward ∧ s'.relay.active = s.relay.active ∧
      s'.relay.applied = s.relay.applied)
    (fun s' i hs => by
      obtain ⟨hl, he', h1, h2, h3⟩ := hs
      obtain ⟨g0, g1, g2, g3⟩ := lifeStep_ended i hl he'
      exact ⟨lifeStep_lived i hl, g0, g1.trans h1, g2.trans h2, g3.trans h3⟩)
    s ⟨h, he, rfl, rfl, rfl⟩ inputs
  exact hrun.2.2

end Lived

theorem lived_start (decision : Decision) (info : Info) (flowID proxyID : String) (now : ℕ)
    (client upstream : Bytes) :
    Lived (.start (.start decision info flowID proxyID now client upstream)) := by
  have hu : Uncalled (.start (.start decision info flowID proxyID now client upstream)) :=
    ⟨rfl, fun _ => rfl, rfl⟩
  have htypes : (Lifecycle.start (.start decision info flowID proxyID now client upstream)).types =
      [.flowStarted, .decision] := rfl
  refine ⟨⟨by simp [Lifecycle.start], by simp [Lifecycle.start]⟩, ⟨[], by simp, rfl⟩, ?_, ?_, ?_, ?_, fun _ => hu,
    fun _ => .inr hu, fun hf => (by cases hf), rfl, ?_⟩
  · rw [htypes]
    simp [Lifecycle.start, Relay.start]
  · rw [htypes]
    simp
  · intro hw
    refine ⟨rfl, ?_, by rw [htypes]; simp⟩
    simp only [Lifecycle.start, Relay.start] at hw
    split_ifs at hw with hdelay
    · simp [Lifecycle.start, Relay.start, Relay.fault, hdelay]
    · cases hw
  · intro _
    simp only [Lifecycle.start, Relay.start]
    split_ifs
    · exact .inl rfl
    · exact .inr ⟨_, rfl⟩
  · intro e he htype
    simp only [Lifecycle.start, Relay.start, List.mem_cons, List.not_mem_nil, or_false] at he
    rcases he with rfl | rfl
    · cases htype
    · cases htype

structure LifecycleLaw (s : Lifecycle) (inputs : List LifeInput) : Prop where
  /-- The events in their order: the fault is recorded at most once, between the start and
  the end, and the end exactly when `serve` has returned. -/
  trace : ∃ fs ∈ [[], [EventType.faultApplied]], (lifecycle s inputs).types = [.flowStarted, .decision] ++ fs ++
    (if (lifecycle s inputs).main = .returned then [.flowFinished] else [])
  /-- The end says whether the fault was recorded. -/
  finished : ∀ e ∈ (lifecycle s inputs).relay.events, e.type = .flowFinished → e.reached = e.applied ∧
    (e.applied = true ↔ .faultApplied ∈ (lifecycle s inputs).types) ∧
    (e.notReached = true ↔ s.relay.decision.selected = true ∧ .faultApplied ∉ (lifecycle s inputs).types)
  /-- Once `stop` has returned, no activation has an effect. -/
  stopped : ∀ later, (lifecycle s inputs).main.ended = true →
    (lifecycle s (inputs ++ later)).outward = (lifecycle s inputs).outward ∧
      (lifecycle s (inputs ++ later)).relay.active = (lifecycle s inputs).relay.active ∧
      (lifecycle s (inputs ++ later)).relay.applied = (lifecycle s inputs).relay.applied

theorem callStep_decision (s : Lifecycle) (g : Caller) : (callStep s g).relay.decision = s.relay.decision := by
  unfold callStep
  split
  · rfl
  · rename_i g' act ho
    split_ifs
    · cases act <;> simp only [actStep] <;> first | rfl | (split_ifs <;> rfl)
    · rfl
  · rfl

theorem lifeMain_decision (s : Lifecycle) (a : Answer) (now : ℕ) :
    (lifeMain s a now).relay.decision = s.relay.decision := by
  unfold lifeMain
  cases s.main with
  | serve =>
    simp only [serveStep]
    split
    · split_ifs <;> rfl
    · exact (moves_advances (mainStep_moves s.relay a now)).decision
  | start =>
    simp only [startStep]
    split
    · rfl
    · split_ifs <;> rfl
  | starting =>
    simp only
    split_ifs
    · exact callStep_decision s _
    · rfl
  | forward =>
    simp only
    by_cases hdone : (s.pumped .clientToUpstream && s.pumped .upstreamToClient) = true
    · rw [if_pos hdone]
    · rw [if_neg hdone]
  | stop outcome =>
    simp only
    split_ifs <;> rfl
  | _ => rfl

theorem lifeStep_decision (s : Lifecycle) (i : LifeInput) : (lifeStep s i).relay.decision = s.relay.decision := by
  cases i with
  | main a now => exact lifeMain_decision s a now
  | pump d a =>
    simp only [lifeStep, pumpCall]
    split_ifs
    · exact callStep_decision s _
    · split <;> rfl
    · split <;> rfl
    · rfl
  | timer =>
    simp only [lifeStep]
    split_ifs
    · exact callStep_decision s _
    · rfl
  | delayOver => rfl
  | cancel => rfl
  | _ =>
    simp only [lifeStep]
    split_ifs <;> rfl

theorem lifecycle_snoc (s : Lifecycle) (inputs : List LifeInput) (i : LifeInput) :
    lifecycle s (inputs ++ [i]) = lifeStep (lifecycle s inputs) i := by
  rw [lifecycle, run_snoc]
  rfl

theorem lifecycle_append (s : Lifecycle) (inputs later : List LifeInput) :
    lifecycle s (inputs ++ later) = lifecycle (lifecycle s inputs) later := by
  rw [lifecycle, run_append]
  rfl

theorem lifecycle_decision (s : Lifecycle) (inputs : List LifeInput) :
    (lifecycle s inputs).relay.decision = s.relay.decision :=
  run_invariant _ (fun s' => s'.relay.decision = s.relay.decision)
    (fun s' i hs => (lifeStep_decision s' i).trans hs) s rfl inputs

theorem lifecycle_law (decision : Decision) (info : Info) (flowID proxyID : String) (now : ℕ)
    (client upstream : Bytes) (inputs : List LifeInput) :
    LifecycleLaw (.start (.start decision info flowID proxyID now client upstream)) inputs := by
  have hstart := lived_start decision info flowID proxyID now client upstream
  generalize Lifecycle.start (.start decision info flowID proxyID now client upstream) = s at hstart
  have hlived := lifecycle_lived hstart inputs
  refine ⟨hlived.shape, ?_, ?_⟩
  · rw [← lifecycle_decision s inputs]
    exact hlived.closing
  · intro later he
    rw [lifecycle_append]
    exact lifecycle_ended hlived he later

end Faultline.TCP
