import Faultline.TCPLifecycle

/-! What every step of a TCP flow keeps, whichever goroutine takes it: who owns the mutex,
which events have been recorded, and where `serve` can be. -/
namespace Faultline.TCP

/-- The parts of the function that change something outside, all of them under the mutex. -/
def Act.live : Act → Bool
  | .store | .apply | .record | .close | .arm => true
  | _ => false

def Act.holds : Act → Bool
  | .lock | .leave => false
  | _ => true

def Act.past : Act → Bool
  | .close | .arm | .unlock | .leave => true
  | _ => false

def Lifecycle.types (s : Lifecycle) : List EventType := s.relay.events.map (·.type)

structure Locked (s : Lifecycle) : Prop where
  activation : s.mutex = some .activation ↔ ∃ g act, s.once = .running g act ∧ act.holds = true
  stop : s.mutex = some .stop ↔ ∃ outcome, s.main = .stopping outcome

section Lock
variable {s : Lifecycle}

theorem actStep_locked {g : Caller} {act : Act} (h : Locked s) (ho : s.once = .running g act) :
    Locked (actStep s g act) := by
  obtain ⟨h1, h2⟩ := h
  have hholds : act.holds = true ↔ s.mutex = some .activation := by
    rw [h1]
    constructor
    · exact fun hh => ⟨g, act, ho, hh⟩
    · rintro ⟨g', act', ho', hh⟩
      rw [ho] at ho'
      cases ho'
      exact hh
  cases act with
  | lock =>
    simp only [actStep]
    split_ifs with hfree
    · refine ⟨by simp [Act.holds], ?_⟩
      rw [hfree] at h2
      simpa using h2
    · exact ⟨h1, h2⟩
  | check =>
    have hm := hholds.mp rfl
    refine ⟨?_, h2⟩
    simp only [actStep, hm, true_iff]
    by_cases hf : s.finished = true <;> simp [hf, Act.holds]
  | store => exact ⟨by simp [actStep, hholds.mp rfl, Act.holds], h2⟩
  | apply => exact ⟨by simp [actStep, hholds.mp rfl, Act.holds], h2⟩
  | record => exact ⟨by simp [actStep, hholds.mp rfl, Act.holds], h2⟩
  | close =>
    simp only [actStep]
    split_ifs
    · exact ⟨by simp [hholds.mp rfl, Act.holds], h2⟩
    · exact ⟨by simp [hholds.mp rfl, Act.holds], h2⟩
  | arm =>
    simp only [actStep]
    split_ifs
    · exact ⟨by simp [hholds.mp rfl, Act.holds], h2⟩
    · exact ⟨by simp [hholds.mp rfl, Act.holds], h2⟩
  | unlock =>
    have hm := hholds.mp rfl
    refine ⟨by simp [actStep, Act.holds], ?_⟩
    rw [hm] at h2
    simpa [actStep] using h2
  | leave =>
    have hm : s.mutex ≠ some .activation := fun hh => absurd (hholds.mpr hh) (by decide)
    exact ⟨by simp [actStep, hm], h2⟩

end Lock

/-- Nobody has called `activate`, and no timer will. -/
def Uncalled (s : Lifecycle) : Prop :=
  s.once = .fresh ∧ (∀ g, s.calling g = false) ∧ s.timer = .unset

/-- `stop` has returned, or there was no controller to stop. -/
def Main.ended : Main → Bool
  | .finish _ | .returned => true
  | _ => false

def Phase.waits : Phase → Bool
  | .waiting _ | .full _ => true
  | _ => false

structure Lived (s : Lifecycle) : Prop where
  locked : Locked s
  shape : ∃ fs ∈ [[], [EventType.faultApplied]], s.types =
    [.flowStarted, .decision] ++ fs ++ (if s.main = .returned then [.flowFinished] else [])
  applied : s.relay.applied = true ↔
    .faultApplied ∈ s.types ∨ ∃ g, s.once = .running g .record
  early : s.relay.fault.isSome = true →
    (s.once = .fresh ∨ ∃ g act, s.once = .running g act ∧ act.past = false) → .faultApplied ∉ s.types
  waiting : s.relay.phase.waits = true →
    s.main = .serve ∧ s.relay.fault = none ∧ .faultApplied ∉ s.types
  serving : s.main = .serve → s.relay.phase.waits = true ∨ ∃ b, s.relay.phase = .dialing b
  uncalled : s.relay.fault = none ∨ s.main = .serve → Uncalled s
  ended : s.main.ended = true → s.finished = true ∨ Uncalled s
  stopped : s.finished = true → ∀ g act, s.once = .running g act → act.live = false
  selected : s.relay.event.selected = s.relay.decision.selected
  closing : ∀ e ∈ s.relay.events, e.type = .flowFinished → e.reached = e.applied ∧
    (e.applied = true ↔ .faultApplied ∈ s.types) ∧
    (e.notReached = true ↔ s.relay.decision.selected = true ∧ .faultApplied ∉ s.types)

section Lived
variable {s : Lifecycle}

theorem Lived.live_main (h : Lived s) {g : Caller} {act : Act} (ho : s.once = .running g act)
    (hl : act.live = true) : s.main.ended = false := by
  rw [← Bool.not_eq_true]
  intro he
  rcases h.ended he with hf | hu
  · rw [h.stopped hf g act ho] at hl
    cases hl
  · rw [hu.1] at ho
    cases ho

theorem Lived.running (h : Lived s) {g : Caller} {act : Act} (ho : s.once = .running g act) :
    s.relay.fault.isSome = true ∧ s.main ≠ .serve := by
  refine ⟨?_, ?_⟩
  · rw [Option.isSome_iff_ne_none]
    intro hn
    rw [(h.uncalled (.inl hn)).1] at ho
    cases ho
  · intro hm
    rw [(h.uncalled (.inr hm)).1] at ho
    cases ho

structure SameFlow (r r' : Relay) : Prop where
  events : r'.events = r.events
  applied : r'.applied = r.applied
  event : r'.event = r.event
  decision : r'.decision = r.decision
  phase : r'.phase = r.phase

theorem SameFlow.fault {r r' : Relay} (h : SameFlow r r') : r'.fault = r.fault := by
  unfold Relay.fault
  rw [h.decision]

theorem lived_once {s' : Lifecycle} (h : Lived s) (hlocked : Locked s') (hr : SameFlow s.relay s'.relay)
    (hmain : s'.main = s.main) (hfinished : s'.finished = s.finished)
    (happlied : (∃ g, s'.once = .running g .record) ↔ ∃ g, s.once = .running g .record)
    (hearly : (s'.once = .fresh ∨ ∃ g act, s'.once = .running g act ∧ act.past = false) →
      s.once = .fresh ∨ ∃ g act, s.once = .running g act ∧ act.past = false)
    (huncalled : Uncalled s → Uncalled s')
    (hlive : s.finished = true → ∀ g act, s'.once = .running g act → act.live = false) : Lived s' := by
  have htypes : s'.types = s.types := by
    unfold Lifecycle.types
    rw [hr.events]
  refine ⟨hlocked, ?_, ?_, ?_, ?_, ?_, ?_, ?_, ?_, ?_, ?_⟩
  · rw [htypes, hmain]
    exact h.shape
  · rw [hr.applied, htypes, happlied]
    exact h.applied
  · rw [hr.fault, htypes]
    exact fun hf hs => h.early hf (hearly hs)
  · rw [hr.phase, hmain, hr.fault, htypes]
    exact h.waiting
  · rw [hr.phase, hmain]
    exact h.serving
  · rw [hr.fault, hmain]
    exact fun hh => huncalled (h.uncalled hh)
  · rw [hmain, hfinished]
    exact fun hh => (h.ended hh).imp_right huncalled
  · rw [hfinished]
    exact hlive
  · rw [hr.event, hr.decision]
    exact h.selected
  · rw [hr.events, hr.decision, htypes]
    exact h.closing

theorem actStep_lived {g : Caller} {act : Act} (h : Lived s) (ho : s.once = .running g act) :
    Lived (actStep s g act) := by
  have hlocked := actStep_locked h.locked ho
  have huncalled (s' : Lifecycle) : Uncalled s → Uncalled s' := by
    rintro ⟨hf, -⟩
    rw [hf] at ho
    cases ho
  have hsame : SameFlow s.relay s.relay := ⟨rfl, rfl, rfl, rfl, rfl⟩
  -- what the steps that neither apply nor record anything have in common
  have hquiet (s' : Lifecycle) (act' : Act) (ho' : s'.once = .running g act') (hl : Locked s')
      (hr : SameFlow s.relay s'.relay) (hmain : s'.main = s.main) (hfinished : s'.finished = s.finished)
      (hact : act ≠ .record ∧ act' ≠ .record) (hpast : act'.past = false → act.past = false)
      (hlive : s.finished = true → act'.live = false) : Lived s' := by
    refine lived_once h hl hr hmain hfinished ?_ ?_ (huncalled s') ?_
    · rw [ho, ho']
      simp [hact]
    · rw [ho, ho']
      rintro (hh | ⟨g1, act1, hh, hp⟩)
      · cases hh
      · cases hh
        exact .inr ⟨g, act, rfl, hpast hp⟩
    · intro hf g1 act1 h1
      rw [ho'] at h1
      cases h1
      exact hlive hf
  cases act with
  | lock =>
    simp only [actStep] at hlocked ⊢
    split_ifs at hlocked ⊢
    · exact hquiet _ .check rfl hlocked hsame rfl rfl ⟨by decide, by decide⟩ (fun _ => rfl) (fun _ => rfl)
    · exact h
  | check =>
    simp only [actStep] at hlocked ⊢
    refine hquiet _ _ rfl hlocked hsame rfl rfl ⟨by decide, ?_⟩ (fun _ => rfl) ?_
    · split_ifs <;> decide
    · intro hf
      simp only [hf, if_true]
      rfl
  | store =>
    have hnot : s.finished ≠ true := fun hf => absurd (h.stopped hf g _ ho) (by decide)
    exact hquiet _ .apply rfl hlocked ⟨rfl, rfl, rfl, rfl, rfl⟩ rfl rfl ⟨by decide, by decide⟩ (fun _ => rfl)
      (fun hf => absurd hf hnot)
  | apply =>
    have hnot : s.finished ≠ true := fun hf => absurd (h.stopped hf g _ ho) (by decide)
    obtain ⟨hsome, hserve⟩ := h.running ho
    refine ⟨hlocked, h.shape, ?_, ?_, h.waiting, h.serving, ?_, ?_, fun hf => absurd hf hnot, h.selected, h.closing⟩
    · simp only [actStep, true_iff]
      exact .inr ⟨g, rfl⟩
    · exact fun _ _ => h.early hsome (.inr ⟨g, _, ho, rfl⟩)
    · exact fun hh => huncalled _ (h.uncalled hh)
    · exact fun hh => (h.ended hh).imp_right (huncalled _)
  | record =>
    have hmain := h.live_main ho rfl
    have hreturned : s.main ≠ .returned := by
      intro hm
      rw [hm] at hmain
      cases hmain
    have hnot : s.finished ≠ true := fun hf => absurd (h.stopped hf g _ ho) (by decide)
    obtain ⟨hsome, hserve⟩ := h.running ho
    have hnone : .faultApplied ∉ s.types := h.early hsome (.inr ⟨g, _, ho, rfl⟩)
    have htypes : (actStep s g .record).types = s.types ++ [.faultApplied] := by
      simp [actStep, Lifecycle.types, Relay.record, Event.asApplied]
    have hmem : .faultApplied ∈ (actStep s g .record).types := by
      rw [htypes]
      simp
    obtain ⟨fs, hfs, hshape⟩ := h.shape
    rw [if_neg hreturned, List.append_nil] at hshape
    have hempty : fs = [] := by
      simp only [List.mem_cons, List.not_mem_nil, or_false] at hfs
      rcases hfs with rfl | rfl
      · rfl
      · exact absurd (by rw [hshape]; simp) hnone
    refine ⟨hlocked, ⟨[.faultApplied], by simp, ?_⟩, ?_, ?_, ?_, h.serving, ?_, ?_, fun hf => absurd hf hnot,
      h.selected, ?_⟩
    · rw [htypes, hshape, hempty]
      simp [actStep, hreturned]
    · have happlied : s.relay.applied = true := h.applied.mpr (.inr ⟨g, ho⟩)
      simp only [actStep, Relay.record, happlied, true_iff]
      exact .inl hmem
    · rintro - (hh | ⟨g1, act1, hh, hp⟩)
      · cases hh
      · cases hh
        cases hp
    · intro hw
      exact absurd (h.waiting hw).1 hserve
    · exact fun hh => huncalled _ (h.uncalled hh)
    · exact fun hh => (h.ended hh).imp_right (huncalled _)
    · intro e he htype
      rcases List.mem_append.mp he with he | he
      · -- no end has been recorded before
        have hin : .flowFinished ∈ s.types := htype ▸ List.mem_map_of_mem he
        rw [hshape, hempty] at hin
        simp at hin
      · rw [List.mem_singleton.mp he] at htype
        cases htype
  | close =>
    have hnot : s.finished ≠ true := fun hf => absurd (h.stopped hf g _ ho) (by decide)
    simp only [actStep] at hlocked ⊢
    split_ifs at hlocked ⊢
    · exact hquiet _ .arm rfl hlocked ⟨rfl, rfl, rfl, rfl, rfl⟩ rfl rfl ⟨by decide, by decide⟩
        (fun hh => by cases hh) (fun hf => absurd hf hnot)
    · exact hquiet _ .arm rfl hlocked hsame rfl rfl ⟨by decide, by decide⟩ (fun hh => by cases hh)
        (fun hf => absurd hf hnot)
  | arm =>
    simp only [actStep] at hlocked ⊢
    split_ifs at hlocked ⊢
    · exact hquiet _ .unlock rfl hlocked hsame rfl rfl ⟨by decide, by decide⟩ (fun hh => by cases hh)
        (fun _ => rfl)
    · exact hquiet _ .unlock rfl hlocked hsame rfl rfl ⟨by decide, by decide⟩ (fun hh => by cases hh)
        (fun _ => rfl)
  | unlock =>
    exact hquiet _ .leave rfl hlocked hsame rfl rfl ⟨by decide, by decide⟩ (fun hh => by cases hh)
      (fun _ => rfl)
  | leave =>
    refine lived_once h hlocked hsame rfl rfl ?_ ?_ (huncalled _) ?_
    · rw [ho]
      simp [actStep]
    · simp [actStep]
    · intro _ g1 act1 h1
      cases h1

theorem callStep_lived {g : Caller} (h : Lived s) (hg : s.calling g = true) : Lived (callStep s g) := by
  have hsame : SameFlow s.relay s.relay := ⟨rfl, rfl, rfl, rfl, rfl⟩
  have huncalled (s' : Lifecycle) : Uncalled s → Uncalled s' := by
    rintro ⟨-, hc, -⟩
    rw [hc g] at hg
    cases hg
  obtain ⟨h1, h2⟩ := h.locked
  unfold callStep
  split
  · rename_i ho
    refine lived_once h ⟨?_, h2⟩ hsame rfl rfl ?_ ?_ (huncalled _) ?_
    · rw [h1, ho]
      simp [Act.holds]
    · rw [ho]
      simp
    · exact fun _ => .inl ho
    · intro _ g1 act1 ho1
      cases ho1
      rfl
  · rename_i g' act ho
    split_ifs with hgg
    · rw [hgg]
      exact actStep_lived h ho
    · exact h
  · rename_i ho
    refine lived_once h ⟨h1, h2⟩ hsame rfl rfl (by simp [ho]) (by simp [ho]) (huncalled _) ?_
    intro _ g1 act1 ho1
    rw [ho] at ho1
    cases ho1

theorem lived_control {s' : Lifecycle} (h : Lived s) (hlocked : Locked s')
    (hevents : s'.relay.events = s.relay.events) (happlied : s'.relay.applied = s.relay.applied)
    (hevent : s'.relay.event = s.relay.event) (hdecision : s'.relay.decision = s.relay.decision)
    (honce : s'.once = s.once) (hreturned : s'.main = .returned ↔ s.main = .returned)
    (hwaits : s'.relay.phase.waits = true → s.relay.phase.waits = true ∧ s'.main = .serve)
    (hserving : s'.main = .serve → s.main = .serve ∧ s'.relay.phase = s.relay.phase)
    (huncalled : s'.relay.fault = none ∨ s'.main = .serve → Uncalled s')
    (hended : s'.main.ended = true → s'.finished = true ∨ Uncalled s')
    (hstopped : s'.finished = true → ∀ g act, s'.once = .running g act → act.live = false) : Lived s' := by
  have htypes : s'.types = s.types := by
    unfold Lifecycle.types
    rw [hevents]
  have hfault : s'.relay.fault = s.relay.fault := by
    unfold Relay.fault
    rw [hdecision]
  refine ⟨hlocked, ?_, ?_, ?_, ?_, ?_, huncalled, hended, hstopped, ?_, ?_⟩
  · obtain ⟨fs, hfs, hshape⟩ := h.shape
    refine ⟨fs, hfs, ?_⟩
    rw [htypes, hshape]
    simp only [hreturned]
  · rw [happlied, htypes, honce]
    exact h.applied
  · rw [hfault, htypes, honce]
    exact h.early
  · intro hw
    obtain ⟨hw, hm⟩ := hwaits hw
    rw [hfault, htypes]
    exact ⟨hm, (h.waiting hw).2⟩
  · intro hm
    obtain ⟨hm, hp⟩ := hserving hm
    rw [hp]
    exact h.serving hm
  · rw [hevent, hdecision]
    exact h.selected
  · rw [hevents, hdecision, htypes]
    exact h.closing

theorem lived_flags {s' : Lifecycle} (h : Lived s) (hr : SameFlow s.relay s'.relay) (hmain : s'.main = s.main)
    (honce : s'.once = s.once) (hmutex : s'.mutex = s.mutex) (hfinished : s'.finished = s.finished)
    (huncalled : Uncalled s → Uncalled s') : Lived s' := by
  refine lived_control h ?_ hr.events hr.applied hr.event hr.decision honce (by rw [hmain]) ?_ ?_ ?_ ?_ ?_
  · obtain ⟨h1, h2⟩ := h.locked
    refine ⟨?_, ?_⟩
    · rw [hmutex, honce]
      exact h1
    · rw [hmutex, hmain]
      exact h2
  · rw [hr.phase, hmain]
    exact fun hw => ⟨hw, (h.waiting hw).1⟩
  · rw [hr.phase, hmain]
    exact fun hm => ⟨hm, rfl⟩
  · rw [hr.fault, hmain]
    exact fun hh => huncalled (h.uncalled hh)
  · rw [hmain, hfinished]
    exact fun hh => (h.ended hh).imp_right huncalled
  · rw [hfinished, honce]
    exact h.stopped

theorem call_lived {s' : Lifecycle} (h : Lived s) (hr : s'.relay = s.relay) (hmain : s'.main = s.main)
    (honce : s'.once = s.once) (hmutex : s'.mutex = s.mutex) (hfinished : s'.finished = s.finished)
    (hnot : ¬ Uncalled s) : Lived s' :=
  lived_flags h (by rw [hr]; exact ⟨rfl, rfl, rfl, rfl, rfl⟩) hmain honce hmutex hfinished
    (fun hu => absurd hu hnot)

theorem fault_of_reaches {r : Relay} {d : Direction} {count : ℕ} (h : r.reaches d count = true) :
    r.fault ≠ none := by
  intro hn
  simp [Relay.reaches, hn] at h

theorem pumpCall_lived (d : Direction) (a : Answer) (h : Lived s) (hmain : s.main = .forward) :
    Lived (pumpCall s d a) := by
  unfold pumpCall
  split_ifs with hcalling
  · exact callStep_lived h hcalling
  · simp only
    have hmoved : Lived { s with relay := { s.relay with
        pump := Function.update s.relay.pump d (pumpStep s.relay d (s.relay.pump d) a) } } :=
      lived_flags h ⟨rfl, rfl, rfl, rfl, rfl⟩ rfl rfl rfl rfl id
    split
    · split_ifs with hreach
      · -- a call by a pump: the controller is there, and `serve` waits for the pumps
        have hfault := fault_of_reaches hreach
        refine lived_control hmoved ⟨hmoved.locked.activation, hmoved.locked.stop⟩ rfl rfl rfl rfl rfl Iff.rfl ?_ ?_ ?_ ?_ hmoved.stopped
        · exact fun hw => ⟨hw, (hmoved.waiting hw).1⟩
        · exact fun hm => ⟨hm, rfl⟩
        · rintro (hn | hm)
          · exact absurd hn hfault
          · rw [show s.main = .serve from hm] at hmain
            cases hmain
        · intro he
          rw [show (_ : Lifecycle).main = s.main from rfl, hmain] at he
          cases he
      · exact hmoved
    · exact hmoved

theorem finish_lived (n : ℕ) (outcome : String) (now : ℕ) (h : Lived s) (hmain : s.main ≠ .returned)
    (hstopping : ∀ o, s.main ≠ .stopping o)
    (hquiet : s.finished = true ∨ Uncalled s) :
    Lived { s with relay := (s.relay.take .clientToUpstream n).finish outcome now, main := .returned } := by
  have hrecord : ¬ ∃ g, s.once = .running g .record := by
    rintro ⟨g, ho⟩
    rcases hquiet with hf | hu
    · exact absurd (h.stopped hf g _ ho) (by decide)
    · rw [hu.1] at ho
      cases ho
  obtain ⟨fs, hfs, hshape⟩ := h.shape
  rw [if_neg hmain, List.append_nil] at hshape
  have htypes : Lifecycle.types { s with
      relay := (s.relay.take .clientToUpstream n).finish outcome now, main := .returned } =
      s.types ++ [.flowFinished] := by
    simp [Lifecycle.types, Relay.finish, Relay.record, Relay.take]
  have hmem : EventType.faultApplied ∈ s.types ++ [.flowFinished] ↔ .faultApplied ∈ s.types := by simp
  refine ⟨⟨h.locked.activation, ?_⟩, ⟨fs, hfs, ?_⟩, ?_, ?_, ?_, ?_, ?_, fun _ => hquiet, h.stopped, h.selected, ?_⟩
  · rw [h.locked.stop]
    simp [hstopping]
  · rw [htypes, hshape, if_pos rfl]
  · rw [htypes, hmem]
    exact h.applied
  · rw [htypes, hmem]
    exact h.early
  · intro hw
    cases hw
  · intro hm
    cases hm
  · rintro (hn | hm)
    · exact h.uncalled (.inl hn)
    · cases hm
  · rw [htypes, hmem]
    intro e he htype
    rcases List.mem_append.mp he with he | he
    · have hin : .flowFinished ∈ s.types := htype ▸ List.mem_map_of_mem he
      rw [hshape] at hin
      simp only [List.mem_cons, List.not_mem_nil, or_false] at hfs
      rcases hfs with rfl | rfl <;> simp at hin
    · have happlied : s.relay.applied = true ↔ .faultApplied ∈ s.types := by
        rw [h.applied]
        simp [hrecord]
      rw [List.mem_singleton.mp he]
      refine ⟨rfl, happlied, ?_⟩
      change (s.relay.event.selected && !s.relay.applied) = true ↔ _
      rw [← happlied, h.selected, Bool.and_eq_true, Bool.not_eq_true', Bool.not_eq_true]
      exact Iff.rfl

theorem mainStep_wait {r : Relay} (h : r.phase.waits = true) (a : Answer) (now : ℕ) :
    ((mainStep r a now).event = r.event ∧ (mainStep r a now).decision = r.decision) ∧
      ((mainStep r a now).events = r.events ∧ (mainStep r a now).applied = r.applied ∧
          (mainStep r a now).phase.waits = true ∨
        (mainStep r a now).events = r.events ++ [r.event.asApplied] ∧ (mainStep r a now).applied = true ∧
          (∃ b, (mainStep r a now).phase = .dialing b) ∨
        ∃ n outcome, mainStep r a now = (r.take .clientToUpstream n).finish outcome now) := by
  unfold mainStep
  cases hphase : r.phase with
  | waiting b =>
    simp only [Relay.wait]
    split_ifs
    · exact ⟨⟨rfl, rfl⟩, .inr (.inr ⟨_, _, rfl⟩)⟩
    · exact ⟨⟨rfl, rfl⟩, .inr (.inl ⟨rfl, rfl, _, rfl⟩)⟩
    · exact ⟨⟨rfl, rfl⟩, .inr (.inr ⟨_, _, rfl⟩)⟩
    · exact ⟨⟨rfl, rfl⟩, .inl ⟨rfl, rfl, rfl⟩⟩
    · exact ⟨⟨rfl, rfl⟩, .inl ⟨rfl, rfl, rfl⟩⟩
  | full b =>
    simp only
    split_ifs
    · exact ⟨⟨rfl, rfl⟩, .inr (.inr ⟨0, _, by rw [take_zero]⟩)⟩
    · exact ⟨⟨rfl, rfl⟩, .inr (.inl ⟨rfl, rfl, _, rfl⟩)⟩
    · exact ⟨⟨rfl, rfl⟩, .inl ⟨rfl, rfl, by rw [hphase]; rfl⟩⟩
  | _ =>
    rw [hphase] at h
    cases h

theorem serveStep_serves (a : Answer) (now : ℕ) (hwaits : s.relay.phase.waits = true)
    (hphase : ∀ o, (mainStep s.relay a now).phase ≠ .over o) :
    serveStep s a now = { s with relay := mainStep s.relay a now, main := .serve } := by
  unfold serveStep
  split
  · rename_i b hb
    rw [hb] at hwaits
    cases hwaits
  · -- the phase after the step selects the second branch
    simp only

theorem serveStep_returns (a : Answer) (now : ℕ) (hwaits : s.relay.phase.waits = true) (o : String)
    (hphase : (mainStep s.relay a now).phase = .over o) :
    serveStep s a now = { s with relay := mainStep s.relay a now, main := .returned } := by
  unfold serveStep
  split
  · rename_i b hb
    rw [hb] at hwaits
    cases hwaits
  · simp only [hphase]

theorem serveStep_lived (a : Answer) (now : ℕ) (h : Lived s) (hmain : s.main = .serve) :
    Lived (serveStep s a now) := by
  have hu := h.uncalled (.inr hmain)
  have hnot : s.main ≠ .returned := by simp [hmain]
  have hstopping : ∀ o, s.main ≠ .stopping o := by simp [hmain]
  rcases h.serving hmain with hw | ⟨b, hb⟩
  · obtain ⟨-, hfault, hnone⟩ := h.waiting hw
    obtain ⟨⟨hevent, hdecision⟩, hcases⟩ := mainStep_wait hw a now
    have hfault' : (mainStep s.relay a now).fault = none := by
      rw [← hfault]
      unfold Relay.fault
      rw [hdecision]
    rcases hcases with ⟨hevents, happlied, hwaits⟩ | ⟨hevents, happlied, b, hb⟩ | ⟨n, outcome, heq⟩
    · rw [serveStep_serves a now hw (fun o ho => by rw [ho] at hwaits; cases hwaits)]
      have htypes : Lifecycle.types { s with relay := mainStep s.relay a now, main := .serve } = s.types := by
        unfold Lifecycle.types
        rw [hevents]
      have hclosing := h.closing
      rw [← hevents, ← hdecision, ← htypes] at hclosing
      refine ⟨⟨h.locked.activation, by rw [h.locked.stop]; simp [hmain]⟩, ?_, ?_, ?_, ?_, fun _ => .inl hwaits,
        fun _ => hu, fun he => (by cases he), h.stopped, by rw [hevent, hdecision]; exact h.selected, hclosing⟩
      · rw [htypes]
        simpa [hmain] using h.shape
      · rw [htypes, happlied]
        exact h.applied
      · exact fun hf => by rw [hfault'] at hf; cases hf
      · rw [htypes]
        exact fun _ => ⟨rfl, hfault', hnone⟩
    · -- the delay is over: the fault is applied, and the dial comes next
      have htypes : Lifecycle.types { s with relay := mainStep s.relay a now, main := .serve } =
          s.types ++ [.faultApplied] := by
        unfold Lifecycle.types
        rw [hevents, List.map_append]
        rfl
      have hin : .faultApplied ∈ Lifecycle.types { s with relay := mainStep s.relay a now, main := .serve } := by
        rw [htypes]
        simp
      obtain ⟨fs, hfs, hshape⟩ := h.shape
      rw [if_neg hnot, List.append_nil] at hshape
      have hempty : fs = [] := by
        simp only [List.mem_cons, List.not_mem_nil, or_false] at hfs
        rcases hfs with rfl | rfl
        · rfl
        · exact absurd (by rw [hshape]; simp) hnone
      rw [serveStep_serves a now hw (fun o ho => by rw [hb] at ho; cases ho)]
      refine ⟨⟨h.locked.activation, by rw [h.locked.stop]; simp [hmain]⟩, ⟨[.faultApplied], by simp, ?_⟩, ?_, ?_,
        ?_, fun _ => .inr ⟨b, hb⟩, fun _ => hu, fun he => (by cases he), h.stopped,
        by rw [hevent, hdecision]; exact h.selected, ?_⟩
      · rw [htypes, hshape, hempty]
        simp
      · simp only [happlied, true_iff]
        exact .inl hin
      · exact fun hf => by rw [hfault'] at hf; cases hf
      · intro hw'
        rw [show (_ : Lifecycle).relay.phase = (mainStep s.relay a now).phase from rfl, hb] at hw'
        cases hw'
      · intro e he htype
        change e ∈ (mainStep s.relay a now).events at he
        rw [hevents] at he
        rcases List.mem_append.mp he with he | he
        · have : .flowFinished ∈ s.types := htype ▸ List.mem_map_of_mem he
          rw [hshape, hempty] at this
          simp at this
        · rw [List.mem_singleton.mp he] at htype
          cases htype
    · rw [serveStep_returns a now hw outcome (by rw [heq]; rfl), heq]
      exact finish_lived n outcome now h hnot hstopping (.inr hu)
  · unfold serveStep
    rw [hb]
    simp only
    split_ifs
    · have hfinish := finish_lived 0 "dial_error" now h hnot hstopping (.inr hu)
      rwa [take_zero] at hfinish
    · rename_i hok hsome
      refine lived_control h ⟨h.locked.activation, by rw [h.locked.stop]; simp [hmain]⟩ rfl rfl rfl rfl rfl
        (by simp [hmain]) (fun hw => by cases hw) (fun hm => by cases hm) ?_ (fun he => by cases he) h.stopped
      rintro (hn | hm)
      · exact hu
      · cases hm
    · refine lived_control h ⟨h.locked.activation, by rw [h.locked.stop]; simp [hmain]⟩ rfl rfl rfl rfl rfl
        (by simp [hmain]) (fun hw => by cases hw) (fun hm => by cases hm) ?_ (fun he => by cases he) h.stopped
      rintro (hn | hm)
      · exact hu
      · cases hm

theorem lived_main {s' : Lifecycle} (h : Lived s) (hlocked : Locked s') (hr : s'.relay = s.relay)
    (honce : s'.once = s.once) (hreturned : s.main ≠ .returned ∧ s'.main ≠ .returned)
    (hserve : s.main ≠ .serve ∧ s'.main ≠ .serve) (huncalled : s.relay.fault = none → Uncalled s → Uncalled s')
    (hended : s'.main.ended = true → s'.finished = true ∨ Uncalled s')
    (hstopped : s'.finished = true → ∀ g act, s'.once = .running g act → act.live = false) : Lived s' := by
  refine lived_control h hlocked (by rw [hr]) (by rw [hr]) (by rw [hr]) (by rw [hr]) honce
    (by simp [hreturned]) ?_ (fun hm => absurd hm hserve.2) ?_ hended hstopped
  · rw [hr]
    exact fun hw => absurd (h.waiting hw).1 hserve.1
  · rw [hr]
    rintro (hn | hm)
    · exact huncalled hn (h.uncalled (.inl hn))
    · exact absurd hm hserve.2

theorem startStep_lived (h : Lived s) (hmain : s.main = .start) : Lived (startStep s) := by
  have hlocked : ∀ m : Main, (∀ o, m ≠ .stopping o) →
      (s.mutex = some .stop ↔ ∃ o, m = .stopping o) := by
    intro m hm
    rw [h.locked.stop]
    simp [hmain, hm]
  unfold startStep
  split
  · rename_i hn
    exact lived_main h ⟨h.locked.activation, hlocked .forward (by simp)⟩ rfl rfl (by simp [hmain]) (by simp [hmain])
      (fun _ => id) (fun he => by cases he) h.stopped
  · rename_i f hf
    split_ifs
    · exact lived_main h ⟨h.locked.activation, hlocked .forward (by simp)⟩ rfl rfl (by simp [hmain])
        (by simp [hmain]) (fun hn => by rw [hf] at hn; cases hn) (fun he => by cases he) h.stopped
    · exact lived_main h ⟨h.locked.activation, hlocked .starting (by simp)⟩ rfl rfl (by simp [hmain])
        (by simp [hmain]) (fun hn => by rw [hf] at hn; cases hn) (fun he => by cases he) h.stopped
    · exact lived_main h ⟨h.locked.activation, hlocked .forward (by simp)⟩ rfl rfl (by simp [hmain])
        (by simp [hmain]) (fun _ => id) (fun he => by cases he) h.stopped

theorem Act.live_holds {act : Act} (h : act.holds = false) : act.live = false := by
  cases act <;> first | rfl | cases h

theorem lifeMain_lived (a : Answer) (now : ℕ) (h : Lived s) : Lived (lifeMain s a now) := by
  unfold lifeMain
  cases hmain : s.main with
  | serve => exact serveStep_lived a now h hmain
  | start => exact startStep_lived h hmain
  | starting =>
    simp only
    split_ifs with hcalling
    · exact callStep_lived h hcalling
    · exact lived_main h ⟨h.locked.activation, by rw [h.locked.stop]; simp [hmain]⟩ rfl rfl (by simp [hmain])
        (by simp [hmain]) (fun _ => id) (fun he => by cases he) h.stopped
  | forward =>
    simp only
    by_cases hdone : (s.pumped .clientToUpstream && s.pumped .upstreamToClient) = true
    · rw [if_pos hdone]
      cases hf : s.relay.fault with
      | none =>
        exact lived_main h ⟨h.locked.activation, by rw [h.locked.stop]; simp [hmain]⟩ rfl rfl (by simp [hmain])
          (by simp [hmain]) (fun _ => id) (fun _ => .inr (h.uncalled (.inl hf))) h.stopped
      | some f =>
        exact lived_main h ⟨h.locked.activation, by rw [h.locked.stop]; simp [hmain]⟩ rfl rfl (by simp [hmain])
          (by simp [hmain]) (fun _ => id) (fun he => by cases he) h.stopped
    · rw [if_neg hdone]
      exact h
  | stop outcome =>
    simp only
    split_ifs with hfree
    · refine lived_main h ⟨?_, by simp⟩ rfl rfl (by simp [hmain]) (by simp [hmain]) (fun _ => id)
        (fun he => by cases he) h.stopped
      have hact := h.locked.activation
      rw [hfree] at hact
      simpa using hact
    · exact h
  | stopping outcome =>
    -- `stop` holds the mutex, so the function of `activate` is not at work
    have hheld : s.mutex = some .stop := h.locked.stop.mpr ⟨outcome, hmain⟩
    have hidle : ∀ g act, s.once = .running g act → act.holds = false := by
      intro g act ho
      rw [← Bool.not_eq_true]
      intro hh
      have := h.locked.activation.mpr ⟨g, act, ho, hh⟩
      rw [hheld] at this
      cases this
    refine lived_main h ⟨?_, by simp⟩ rfl rfl (by simp [hmain]) (by simp [hmain]) ?_ (fun _ => .inl rfl)
      (fun _ g act ho => Act.live_holds (hidle g act ho))
    · simp only [reduceCtorEq, false_iff]
      rintro ⟨g, act, ho, hh⟩
      rw [hidle g act ho] at hh
      cases hh
    · rintro - ⟨h1, h2, h3⟩
      exact ⟨h1, h2, by rw [h3]; rfl⟩
  | finish outcome =>
    have hfinish := finish_lived 0 outcome now h (by simp [hmain]) (by simp [hmain]) (h.ended (by rw [hmain]; rfl))
    rwa [take_zero] at hfinish
  | returned => exact h

/-- The step lemma: any step of any goroutine keeps the invariant. -/
theorem lifeStep_lived (i : LifeInput) (h : Lived s) : Lived (lifeStep s i) := by
  have hflags (r : Relay) (hr : SameFlow s.relay r) : Lived { s with relay := r } :=
    lived_flags h hr rfl rfl rfl rfl id
  cases i with
  | main a now => exact lifeMain_lived a now h
  | pump d a =>
    simp only [lifeStep]
    split_ifs with hmain
    · exact pumpCall_lived d a h hmain
    · exact h
  | timerFires =>
    simp only [lifeStep]
    split_ifs with harmed
    · refine call_lived h rfl rfl rfl rfl rfl ?_
      rintro ⟨-, -, hunset⟩
      rw [harmed] at hunset
      cases hunset
    · exact h
  | timer =>
    simp only [lifeStep]
    split_ifs with hcalling
    · exact callStep_lived h hcalling
    · exact h
  | holdFires =>
    simp only [lifeStep]
    split_ifs
    · exact lived_flags h ⟨rfl, rfl, rfl, rfl, rfl⟩ rfl rfl rfl rfl id
    · exact h
  | holdCloses =>
    simp only [lifeStep]
    split_ifs
    · exact hflags _ ⟨rfl, rfl, rfl, rfl, rfl⟩
    · exact h
  | delayOver => exact hflags _ ⟨rfl, rfl, rfl, rfl, rfl⟩
  | cancel => exact hflags _ ⟨rfl, rfl, rfl, rfl, rfl⟩

end Lived

end Faultline.TCP
