import Faultline.TCPLifecycleRuns

/-! The steps of the goroutines as moves of the connection: whatever runs next, the connection
changes as one of the coarse steps could change it, so what every move keeps holds here too. -/
namespace Faultline.TCP

/-- The function of `activate` has stored `active` and is at work. -/
def Act.acted : Act → Bool
  | .apply | .record | .close | .arm => true
  | _ => false

/-- What one step of a goroutine does that is in a call of `activate`. -/
inductive CallCase (s : Lifecycle) (g : Caller) : Lifecycle → Prop
  /-- Only `once`, the mutex and the calls change, and the function does not get to work. -/
  | control {s'} (relay : s'.relay = s.relay) (main : s'.main = s.main) (finished : s'.finished = s.finished)
      (timer : s'.timer = s.timer) (hold : s'.hold = s.hold)
      (begins : ∀ g' act, s'.once = .running g' act → act.acted = true → s.once = .running g' act)
      (stays : ∀ g', s.once = .running g' .apply → s'.once = .running g' .apply) : CallCase s g s'
  | acts (act : Act) (ho : s.once = .running g act) (hacts : act = .store ∨ act.acted = true) :
      CallCase s g (actStep s g act)

section Step
variable {s : Lifecycle}

theorem callStep_cases (s : Lifecycle) (g : Caller) : CallCase s g (callStep s g) := by
  have hsame : CallCase s g s := .control rfl rfl rfl rfl rfl (fun _ _ ho _ => ho) (fun _ ho => ho)
  unfold callStep
  cases ho : s.once with
  | fresh =>
    refine .control rfl rfl rfl rfl rfl ?_ (by simp [ho])
    intro g' act hact hacted
    cases hact
    cases hacted
  | done =>
    refine .control rfl rfl rfl rfl rfl ?_ (by simp [ho])
    intro g' act hact
    cases hact
  | running g' act =>
    by_cases hg : g = g'
    · subst hg
      simp only [if_true]
      cases act with
      | lock =>
        simp only [actStep]
        split_ifs
        · refine .control rfl rfl rfl rfl rfl ?_ (by simp [ho])
          intro g' act hact hacted
          cases hact
          cases hacted
        · exact hsame
      | check =>
        refine .control rfl rfl rfl rfl rfl ?_ (by simp [ho])
        intro g' act hact hacted
        cases hact
        split_ifs at hacted <;> cases hacted
      | unlock =>
        refine .control rfl rfl rfl rfl rfl ?_ (by simp [ho])
        intro g' act hact hacted
        cases hact
        cases hacted
      | leave =>
        refine .control rfl rfl rfl rfl rfl ?_ (by simp [ho])
        intro g' act hact
        cases hact
      | store => exact .acts .store ho (.inl rfl)
      | apply => exact .acts .apply ho (.inr rfl)
      | record => exact .acts .record ho (.inr rfl)
      | close => exact .acts .close ho (.inr rfl)
      | arm => exact .acts .arm ho (.inr rfl)
    · simp only [if_neg hg]
      exact hsame

structure Acting (s : Lifecycle) : Prop where
  acted : ∀ g act, s.once = .running g act → act.acted = true → s.relay.active = true
  hold : s.hold ≠ .unset → s.relay.active = true ∧ s.relay.decision.fault.action = "hold"
  applied : s.relay.fault.isSome = true → s.relay.applied = true → s.relay.active = true
  pending : s.relay.active = true → s.relay.applied = true ∨ ∃ g, s.once = .running g .apply

theorem acting_kept {s' : Lifecycle} (h : Acting s) (hdecision : s'.relay.decision = s.relay.decision)
    (hactive : s'.relay.active = s.relay.active)
    (happlied : s.relay.applied = true → s'.relay.applied = true)
    (hback : s.relay.fault.isSome = true → s'.relay.applied = true → s.relay.applied = true)
    (hbegins : ∀ g act, s'.once = .running g act → act.acted = true → s.once = .running g act)
    (hstays : ∀ g, s.once = .running g .apply → s'.once = .running g .apply)
    (hhold : s'.hold ≠ .unset → s.hold ≠ .unset) : Acting s' := by
  have hfault : s'.relay.fault = s.relay.fault := by
    unfold Relay.fault
    rw [hdecision]
  refine ⟨?_, ?_, ?_, ?_⟩
  · intro g act ho hacted
    rw [hactive]
    exact h.acted g act (hbegins g act ho hacted) hacted
  · intro hset
    rw [hactive, hdecision]
    exact h.hold (hhold hset)
  · intro hsome hdone
    rw [hfault] at hsome
    rw [hactive]
    exact h.applied hsome (hback hsome hdone)
  · intro hset
    rw [hactive] at hset
    rcases h.pending hset with hdone | ⟨g, ho⟩
    · exact .inl (happlied hdone)
    · exact .inr ⟨g, hstays g ho⟩

theorem Acting.past (h : Acting s) {g : Caller} {act : Act} (ho : s.once = .running g act)
    (hacted : act.acted = true) (hact : act ≠ .apply) : s.relay.applied = true := by
  rcases h.pending (h.acted g act ho hacted) with hdone | ⟨g', hother⟩
  · exact hdone
  · rw [ho] at hother
    cases hother
    exact absurd rfl hact

theorem callStep_acting (g : Caller) (h : Acting s) : Acting (callStep s g) := by
  have hcase := callStep_cases s g
  generalize callStep s g = s' at hcase
  cases hcase with
  | control hrelay hmain hfinished htimer hhold hbegins hstays =>
    refine acting_kept h (by rw [hrelay]) (by rw [hrelay]) (by rw [hrelay]; exact id) ?_ hbegins hstays (by rw [hhold]; exact id)
    rw [hrelay]
    exact fun _ => id
  | acts act ho hacts =>
    cases act with
    | store =>
      exact ⟨fun _ _ _ _ => rfl, fun hset => ⟨rfl, (h.hold hset).2⟩, fun _ _ => rfl, fun _ => .inr ⟨g, rfl⟩⟩
    | apply =>
      have hactive := h.acted g .apply ho rfl
      exact ⟨fun _ _ _ _ => hactive, fun hset => ⟨hactive, (h.hold hset).2⟩, fun _ _ => hactive, fun _ => .inl rfl⟩
    | record =>
      have hactive := h.acted g .record ho rfl
      have happlied := h.past ho rfl (by simp)
      exact ⟨fun _ _ _ _ => hactive, fun hset => ⟨hactive, (h.hold hset).2⟩, fun _ _ => hactive,
        fun _ => .inl happlied⟩
    | close =>
      have hactive := h.acted g .close ho rfl
      have happlied := h.past ho rfl (by simp)
      simp only [actStep]
      split_ifs <;> exact ⟨fun _ _ _ _ => hactive, fun hset => ⟨hactive, (h.hold hset).2⟩, fun _ _ => hactive,
        fun _ => .inl happlied⟩
    | arm =>
      have hactive := h.acted g .arm ho rfl
      have happlied := h.past ho rfl (by simp)
      simp only [actStep]
      split_ifs with hhold
      · exact ⟨fun _ _ _ _ => hactive, fun _ => ⟨hactive, hhold⟩, fun _ _ => hactive, fun _ => .inl happlied⟩
      · exact ⟨fun _ _ _ _ => hactive, fun hset => ⟨hactive, (h.hold hset).2⟩, fun _ _ => hactive,
          fun _ => .inl happlied⟩
    | _ => simp [Act.acted] at hacts

/-- The outcome that `serve` has settled on. -/
def Main.sample : Main → Option String
  | .stop outcome | .stopping outcome | .finish outcome => some outcome
  | _ => none

/-- Where `serve` is, as the connection shows it. -/
structure Staged (s : Lifecycle) : Prop where
  serving : s.main = .serve → s.relay.phase.buffer ≠ none
  forwarding : s.main ≠ .serve → s.main ≠ .returned → s.relay.phase = .forwarding
  done : s.main.sample ≠ none → ∀ d, (s.relay.pump d).stage = .done

theorem staged_kept {s' : Lifecycle} (h : Staged s) (hmain : s'.main = s.main)
    (hphase : s'.relay.phase = s.relay.phase) (hpump : s'.relay.pump = s.relay.pump) : Staged s' := by
  refine ⟨?_, ?_, ?_⟩
  · rw [hmain, hphase]
    exact h.serving
  · rw [hmain, hphase]
    exact h.forwarding
  · rw [hmain, hpump]
    exact h.done

theorem callStep_kept (s : Lifecycle) (g : Caller) : (callStep s g).main = s.main ∧
    (callStep s g).relay.phase = s.relay.phase ∧ (callStep s g).relay.pump = s.relay.pump := by
  have hcase := callStep_cases s g
  generalize callStep s g = s' at hcase
  cases hcase with
  | control hrelay hmain => exact ⟨hmain, by rw [hrelay], by rw [hrelay]⟩
  | acts act ho hacts =>
    cases act with
    | close =>
      simp only [actStep]
      split_ifs <;> exact ⟨rfl, rfl, rfl⟩
    | arm =>
      simp only [actStep]
      split_ifs <;> exact ⟨rfl, rfl, rfl⟩
    | lock => simp [Act.acted] at hacts
    | _ => exact ⟨rfl, rfl, rfl⟩

theorem callStep_moves (g : Caller) (h : Acting s) : Moves s.relay (callStep s g).relay := by
  have hcase := callStep_cases s g
  generalize callStep s g = s' at hcase
  cases hcase with
  | control hrelay =>
    rw [hrelay]
    exact .noted (noted_refl _) (advances_refl _)
  | acts act ho hacts =>
    cases act with
    | store => exact .noted ⟨rfl, rfl, .inl rfl⟩ ⟨rfl, id, fun _ => rfl, .inl⟩
    | apply => exact .noted ⟨rfl, rfl, .inl rfl⟩ ⟨rfl, id, id, .inl⟩
    | record => exact .noted ⟨rfl, rfl, .inr rfl⟩ ⟨rfl, id, id, .inl⟩
    | close =>
      simp only [actStep]
      split_ifs with hclose
      · exact .noted ⟨rfl, rfl, .inl rfl⟩
          ⟨rfl, id, id, fun _ => .inr (.inr ⟨h.acted g .close ho rfl, .inl hclose⟩)⟩
      · exact .noted (noted_refl _) (advances_refl _)
    | arm =>
      simp only [actStep]
      split_ifs <;> exact .noted (noted_refl _) (advances_refl _)
    | _ => simp [Act.acted] at hacts

theorem mainStep_active {r : Relay} (h : r.phase.waits = true) (a : Answer) (now : ℕ) :
    (mainStep r a now).active = r.active ∧ (r.applied = true → (mainStep r a now).applied = true) := by
  unfold mainStep
  cases hphase : r.phase with
  | waiting b =>
    simp only [Relay.wait]
    split_ifs <;> first | exact ⟨rfl, id⟩ | exact ⟨rfl, fun _ => rfl⟩
  | full b =>
    simp only
    split_ifs <;> first | exact ⟨rfl, id⟩ | exact ⟨rfl, fun _ => rfl⟩
  | _ =>
    rw [hphase] at h
    cases h

theorem serveStep_wait (a : Answer) (now : ℕ) (hwaits : s.relay.phase.waits = true) :
    (serveStep s a now).relay = mainStep s.relay a now ∧ (serveStep s a now).once = s.once ∧
      (serveStep s a now).hold = s.hold ∧
      ((serveStep s a now).main = .returned ∨
        (serveStep s a now).main = .serve ∧ ∀ o, (mainStep s.relay a now).phase ≠ .over o) := by
  by_cases hover : ∃ o, (mainStep s.relay a now).phase = .over o
  · obtain ⟨o, ho⟩ := hover
    rw [serveStep_returns a now hwaits o ho]
    exact ⟨rfl, rfl, rfl, .inl rfl⟩
  · push Not at hover
    rw [serveStep_serves a now hwaits hover]
    exact ⟨rfl, rfl, rfl, .inr ⟨rfl, hover⟩⟩

theorem serveStep_acting (a : Answer) (now : ℕ) (hl : Lived s) (h : Acting s) (hmain : s.main = .serve) :
    Acting (serveStep s a now) := by
  have hkeep {s' : Lifecycle} (hdecision : s'.relay.decision = s.relay.decision)
      (hactive : s'.relay.active = s.relay.active) (happlied : s'.relay.applied = s.relay.applied)
      (honce : s'.once = s.once) (hhold : s'.hold = s.hold) : Acting s' := by
    refine acting_kept h hdecision hactive (by rw [happlied]; exact id) (by rw [happlied]; exact fun _ => id) ?_ ?_
      (by rw [hhold]; exact id)
    · rw [honce]
      exact fun _ _ ho _ => ho
    · rw [honce]
      exact fun _ ho => ho
  rcases hl.serving hmain with hwaits | ⟨b, hb⟩
  · have hnone := (hl.waiting hwaits).2.1
    obtain ⟨hactive, happlied⟩ := mainStep_active hwaits a now
    obtain ⟨hrelay, honce, hhold, _⟩ := serveStep_wait a now hwaits
    refine acting_kept h ?_ ?_ ?_ ?_ ?_ ?_ (by rw [hhold]; exact id)
    · rw [hrelay]
      exact (moves_advances (mainStep_moves s.relay a now)).decision
    · rw [hrelay]
      exact hactive
    · rw [hrelay]
      exact happlied
    · rw [hnone]
      exact fun hf => by cases hf
    · rw [honce]
      exact fun _ _ ho _ => ho
    · rw [honce]
      exact fun _ ho => ho
  · simp only [serveStep, hb]
    split_ifs
    · exact hkeep rfl rfl rfl rfl rfl
    · exact hkeep rfl rfl rfl rfl rfl
    · exact hkeep rfl rfl rfl rfl rfl

theorem pumpCall_acting (d : Direction) (a : Answer) (h : Acting s) : Acting (pumpCall s d a) := by
  have hkeep (r : Relay) (calling : Caller → Bool) (hdecision : r.decision = s.relay.decision)
      (hactive : r.active = s.relay.active) (happlied : r.applied = s.relay.applied) :
      Acting { s with relay := r, calling := calling } :=
    acting_kept h hdecision hactive (by rw [happlied]; exact id) (by rw [happlied]; exact fun _ => id)
      (fun _ _ ho _ => ho) (fun _ ho => ho) id
  unfold pumpCall
  split_ifs
  · exact callStep_acting _ h
  · simp only
    split
    · split_ifs
      · exact hkeep _ _ rfl rfl rfl
      · exact hkeep _ _ rfl rfl rfl
    · exact hkeep _ _ rfl rfl rfl

theorem lifeStep_acting (i : LifeInput) (hl : Lived s) (h : Acting s) : Acting (lifeStep s i) := by
  have hkeep {s' : Lifecycle} (hdecision : s'.relay.decision = s.relay.decision)
      (hactive : s'.relay.active = s.relay.active) (happlied : s'.relay.applied = s.relay.applied)
      (honce : s'.once = s.once) (hhold : s'.hold ≠ .unset → s.hold ≠ .unset) : Acting s' := by
    refine acting_kept h hdecision hactive (by rw [happlied]; exact id) (by rw [happlied]; exact fun _ => id) ?_ ?_ hhold
    · rw [honce]
      exact fun _ _ ho _ => ho
    · rw [honce]
      exact fun _ ho => ho
  cases i with
  | main a now =>
    simp only [lifeStep, lifeMain]
    cases hmain : s.main with
    | serve => exact serveStep_acting a now hl h hmain
    | start =>
      simp only [startStep]
      split
      · exact hkeep rfl rfl rfl rfl id
      · split_ifs <;> exact hkeep rfl rfl rfl rfl id
    | starting =>
      simp only
      split_ifs
      · exact callStep_acting _ h
      · exact hkeep rfl rfl rfl rfl id
    | forward =>
      simp only
      split
      · exact hkeep rfl rfl rfl rfl id
      · exact h
    | stop outcome =>
      simp only
      split_ifs
      · exact hkeep rfl rfl rfl rfl id
      · exact h
    | stopping outcome =>
      refine hkeep rfl rfl rfl rfl ?_
      intro hset hunset
      exact hset (by rw [hunset]; rfl)
    | finish outcome => exact hkeep rfl rfl rfl rfl id
    | returned => exact h
  | pump d a =>
    simp only [lifeStep]
    split_ifs
    · exact pumpCall_acting d a h
    · exact h
  | timerFires =>
    simp only [lifeStep]
    split_ifs
    · exact hkeep rfl rfl rfl rfl id
    · exact h
  | timer =>
    simp only [lifeStep]
    split_ifs
    · exact callStep_acting _ h
    · exact h
  | holdFires =>
    simp only [lifeStep]
    split_ifs with harmed
    · refine hkeep rfl rfl rfl rfl ?_
      intro _ hunset
      rw [harmed] at hunset
      cases hunset
    · exact h
  | holdCloses =>
    simp only [lifeStep]
    split_ifs
    · exact hkeep rfl rfl rfl rfl id
    · exact h
  | delayOver => exact hkeep rfl rfl rfl rfl id
  | cancel => exact hkeep rfl rfl rfl rfl id

theorem pumpCall_main (s : Lifecycle) (d : Direction) (a : Answer) : (pumpCall s d a).main = s.main := by
  unfold pumpCall
  split_ifs
  · exact (callStep_kept s _).1
  · simp only
    split
    · split_ifs <;> rfl
    · rfl

theorem lifeStep_main (s : Lifecycle) (i : LifeInput) (h : ∀ a now, i ≠ .main a now) :
    (lifeStep s i).main = s.main := by
  cases i with
  | main a now => exact absurd rfl (h a now)
  | pump d a =>
    simp only [lifeStep]
    split_ifs
    · exact pumpCall_main s d a
    · rfl
  | timer =>
    simp only [lifeStep]
    split_ifs
    · exact (callStep_kept s _).1
    · rfl
  | delayOver => rfl
  | cancel => rfl
  | _ =>
    simp only [lifeStep]
    split_ifs <;> rfl

theorem pumpCall_cases (s : Lifecycle) (d : Direction) (a : Answer) :
    s.calling (.pump d) = true ∧ pumpCall s d a = callStep s (.pump d) ∨
      s.calling (.pump d) = false ∧ (pumpCall s d a).relay = { s.relay with
        pump := Function.update s.relay.pump d (pumpStep s.relay d (s.relay.pump d) a) } := by
  unfold pumpCall
  by_cases hcalling : s.calling (.pump d) = true
  · rw [if_pos hcalling]
    exact .inl ⟨hcalling, rfl⟩
  · rw [if_neg hcalling]
    refine .inr ⟨by simpa using hcalling, ?_⟩
    simp only
    split
    · split_ifs <;> rfl
    · rfl

theorem serveStep_staged (a : Answer) (now : ℕ) (hl : Lived s) (hmain : s.main = .serve) :
    Staged (serveStep s a now) := by
  rcases hl.serving hmain with hwaits | ⟨b, hb⟩
  · obtain ⟨hrelay, _, _, hnext⟩ := serveStep_wait a now hwaits
    rcases hnext with hreturned | ⟨hserve, hnot⟩
    · refine ⟨?_, ?_, ?_⟩
      · simp [hreturned]
      · simp [hreturned]
      · simp [hreturned, Main.sample]
    · refine ⟨?_, ?_, ?_⟩
      · intro _
        rw [hrelay]
        rcases (mainStep_wait hwaits a now).2 with ⟨-, -, hphase⟩ | ⟨-, -, c, hphase⟩ | ⟨n, outcome, heq⟩
        · cases hp : (mainStep s.relay a now).phase with
          | waiting c => simp [Phase.buffer]
          | full c => simp [Phase.buffer]
          | _ =>
            rw [hp] at hphase
            cases hphase
        · simp [hphase, Phase.buffer]
        · exact absurd (by rw [heq]; rfl) (hnot outcome)
      · simp [hserve]
      · simp [hserve, Main.sample]
  · simp only [serveStep, hb]
    split_ifs
    · exact ⟨by simp, by simp, by simp [Main.sample]⟩
    · exact ⟨by simp, by simp, by simp [Main.sample]⟩
    · exact ⟨by simp, by simp, by simp [Main.sample]⟩

theorem lifeMain_staged (a : Answer) (now : ℕ) (hl : Lived s) (h : Staged s) : Staged (lifeMain s a now) := by
  have hnext (s' : Lifecycle) (hserve : s.main ≠ .serve) (hreturned : s.main ≠ .returned)
      (hphase : s'.relay.phase = s.relay.phase) (hserve' : s'.main ≠ .serve)
      (hdone : s'.main.sample ≠ none → ∀ d, (s'.relay.pump d).stage = .done) : Staged s' :=
    ⟨fun hs => absurd hs hserve', fun _ _ => hphase.trans (h.forwarding hserve hreturned), hdone⟩
  unfold lifeMain
  cases hmain : s.main with
  | serve => exact serveStep_staged a now hl hmain
  | start =>
    simp only [startStep]
    split
    · exact hnext _ (by simp [hmain]) (by simp [hmain]) rfl (by simp) (by simp [Main.sample])
    · split_ifs <;> exact hnext _ (by simp [hmain]) (by simp [hmain]) rfl (by simp) (by simp [Main.sample])
  | starting =>
    simp only
    split_ifs
    · obtain ⟨h1, h2, h3⟩ := callStep_kept s .start
      exact staged_kept h h1 h2 h3
    · exact hnext _ (by simp [hmain]) (by simp [hmain]) rfl (by simp) (by simp [Main.sample])
  | forward =>
    simp only
    by_cases hdone : (s.pumped .clientToUpstream && s.pumped .upstreamToClient) = true
    · rw [if_pos hdone]
      simp only [Lifecycle.pumped, Bool.and_eq_true, decide_eq_true_eq] at hdone
      have hboth : ∀ d, (s.relay.pump d).stage = .done := by
        intro d
        cases d
        · exact hdone.1.1
        · exact hdone.2.1
      refine hnext _ (by simp [hmain]) (by simp [hmain]) rfl ?_ (fun _ => hboth)
      simp only
      split <;> simp
    · rw [if_neg hdone]
      exact h
  | stop outcome =>
    have hboth := h.done (by simp [hmain, Main.sample])
    simp only
    split_ifs
    · exact hnext _ (by simp [hmain]) (by simp [hmain]) rfl (by simp) (fun _ => hboth)
    · exact h
  | stopping outcome =>
    have hboth := h.done (by simp [hmain, Main.sample])
    exact hnext _ (by simp [hmain]) (by simp [hmain]) rfl (by simp) (fun _ => hboth)
  | finish outcome => exact ⟨by simp, by simp, by simp [Main.sample]⟩
  | returned => exact h

theorem lifeStep_staged (i : LifeInput) (hl : Lived s) (h : Staged s) : Staged (lifeStep s i) := by
  have hcall (g : Caller) : Staged (callStep s g) := by
    obtain ⟨h1, h2, h3⟩ := callStep_kept s g
    exact staged_kept h h1 h2 h3
  cases i with
  | main a now => exact lifeMain_staged a now hl h
  | pump d a =>
    simp only [lifeStep]
    split_ifs with hmain
    · rcases pumpCall_cases s d a with ⟨-, heq⟩ | ⟨-, hrelay⟩
      · rw [heq]
        exact hcall _
      · have hmain' := (pumpCall_main s d a).trans hmain
        refine ⟨by simp [hmain'], ?_, by simp [hmain', Main.sample]⟩
        intro _ _
        rw [hrelay]
        exact h.forwarding (by simp [hmain]) (by simp [hmain])
    · exact h
  | timer =>
    simp only [lifeStep]
    split_ifs
    · exact hcall _
    · exact h
  | delayOver => exact staged_kept h rfl rfl rfl
  | cancel => exact staged_kept h rfl rfl rfl
  | _ =>
    simp only [lifeStep]
    split_ifs <;> exact staged_kept h rfl rfl rfl

theorem lifeStep_moves (i : LifeInput) (hl : Lived s) (ha : Acting s) (h : Staged s) :
    Moves s.relay (lifeStep s i).relay := by
  have hsame : Moves s.relay s.relay := .noted (noted_refl _) (advances_refl _)
  cases i with
  | main a now =>
    simp only [lifeStep, lifeMain]
    cases hmain : s.main with
    | serve =>
      rcases hl.serving hmain with hwaits | ⟨b, hb⟩
      · rw [(serveStep_wait a now hwaits).1]
        exact mainStep_moves s.relay a now
      · simp only [serveStep, hb]
        split_ifs
        · have hfin := Moves.finished (s := s.relay) 0 "dial_error" now (.inl (h.serving hmain))
          rwa [take_zero] at hfin
        · exact .dialed b hb rfl rfl (.inl rfl) ⟨rfl, id, id, .inl⟩
        · exact .dialed b hb rfl rfl (.inl rfl) ⟨rfl, id, id, .inl⟩
    | start =>
      simp only [startStep]
      split
      · exact hsame
      · split_ifs <;> exact hsame
    | starting =>
      simp only
      split_ifs
      · exact callStep_moves _ ha
      · exact hsame
    | forward =>
      simp only
      split
      · exact hsame
      · exact hsame
    | stop outcome =>
      simp only
      split_ifs <;> exact hsame
    | stopping outcome => exact hsame
    | finish outcome =>
      have hphase := h.forwarding (by simp [hmain]) (by simp [hmain])
      have hdone := h.done (by simp [hmain, Main.sample])
      have hfin := Moves.finished (s := s.relay) 0 outcome now (.inr ⟨hphase, rfl, hdone⟩)
      rwa [take_zero] at hfin
    | returned => exact hsame
  | pump d a =>
    simp only [lifeStep]
    split_ifs with hmain
    · rcases pumpCall_cases s d a with ⟨-, heq⟩ | ⟨-, hrelay⟩
      · rw [heq]
        exact callStep_moves _ ha
      · have hphase := h.forwarding (by simp [hmain]) (by simp [hmain])
        rw [hrelay]
        exact .pumped d a hphase hphase rfl (.inl rfl) ⟨rfl, id, id, .inl⟩
    · exact hsame
  | timerFires =>
    simp only [lifeStep]
    split_ifs <;> exact hsame
  | timer =>
    simp only [lifeStep]
    split_ifs
    · exact callStep_moves _ ha
    · exact hsame
  | holdFires =>
    simp only [lifeStep]
    split_ifs <;> exact hsame
  | holdCloses =>
    simp only [lifeStep]
    split_ifs with hfired
    · obtain ⟨hactive, hhold⟩ := ha.hold (by simp [hfired])
      exact .noted ⟨rfl, rfl, .inl rfl⟩ ⟨rfl, id, id, fun _ => .inr (.inr ⟨hactive, .inr hhold⟩)⟩
    · exact hsame
  | delayOver => exact .noted ⟨rfl, rfl, .inl rfl⟩ ⟨rfl, id, id, .inl⟩
  | cancel => exact .noted ⟨rfl, rfl, .inl rfl⟩ ⟨rfl, fun _ => rfl, id, fun _ => .inr (.inl rfl)⟩

end Step

structure Tracked (stream : Direction → Bytes) (s : Lifecycle) : Prop where
  lived : Lived s
  acting : Acting s
  staged : Staged s
  carried : ∀ d, Carried s.relay d (stream d)

theorem tracked_step {s : Lifecycle} {stream : Direction → Bytes} (i : LifeInput) (h : Tracked stream s) :
    Tracked stream (lifeStep s i) where
  lived := lifeStep_lived i h.lived
  acting := lifeStep_acting i h.lived h.acting
  staged := lifeStep_staged i h.lived h.staged
  carried := fun d => carried_moves (lifeStep_moves i h.lived h.acting h.staged) (h.carried d)

theorem tracked_start (decision : Decision) (info : Info) (flowID proxyID : String) (now : ℕ)
    (client upstream : Bytes) : Tracked (streams client upstream)
      (.start (.start decision info flowID proxyID now client upstream)) where
  lived := lived_start decision info flowID proxyID now client upstream
  acting := ⟨by simp [Lifecycle.start], by simp [Lifecycle.start], by simp [Lifecycle.start, Relay.start],
    by simp [Lifecycle.start, Relay.start]⟩
  staged := by
    refine ⟨?_, by simp [Lifecycle.start], by simp [Lifecycle.start, Main.sample]⟩
    intro _
    simp only [Lifecycle.start, Relay.start]
    split_ifs <;> simp [Phase.buffer]
  carried := carried_start decision info flowID proxyID now client upstream

theorem tracked_lifecycle {s : Lifecycle} {stream : Direction → Bytes} (h : Tracked stream s)
    (inputs : List LifeInput) : Tracked stream (lifecycle s inputs) :=
  run_invariant _ (Tracked stream) (fun _ i hs => tracked_step i hs) s h inputs

end Faultline.TCP
