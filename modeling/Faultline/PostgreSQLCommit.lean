import Faultline.PostgreSQLCycle

/-! Which commits of a PostgreSQL session are decided, and with which snapshot: as long as
the session is open, the flags of `exchange` follow the history. -/
namespace Faultline.PostgreSQL

section Run
variable (e : Endpoint) (s : Session)

def before (inputs : List Input) (k : ℕ) : Session := (exchange e s (inputs.take k)).2

structure Follows (inputs : List Input) : Prop where
  cycle : (exchange e s inputs).2.active = true ↔ InCycle inputs inputs.length
  snapshot : (exchange e s inputs).2.active = true → ∃ j, CycleFrom inputs j inputs.length ∧
    (exchange e s inputs).2.snap = some (before e s inputs j).service.acquire
  transaction : (exchange e s inputs).2.transaction = true ↔
    Observed inputs (exchange e s inputs).1 inputs.length
  decided : ((exchange e s inputs).2.active && (exchange e s inputs).2.decided) = true ↔
    DecidedInCycle inputs (exchange e s inputs).1 inputs.length
  idle : (exchange e s inputs).2.active = false → (exchange e s inputs).2.awaiting = false

variable {e s}

theorem exchange_snoc (inputs : List Input) (i : Input) : exchange e s (inputs ++ [i]) =
    ((exchange e s inputs).1 ++ [(exchangeStep e (exchange e s inputs).2 i).1],
      (exchangeStep e (exchange e s inputs).2 i).2) := run_snoc _ _ _ _

theorem length_exchange (inputs : List Input) : (exchange e s inputs).1.length = inputs.length :=
  length_run _ _ _

theorem exchangeStep_closed {i : Input} (h : (exchangeStep e s i).2.closed = false) :
    s.closed = false := by
  by_contra hc
  rw [Bool.not_eq_false] at hc
  cases i <;> simp [exchangeStep, hc] at h

theorem before_snoc {inputs : List Input} {j : ℕ} (i : Input) (hj : j ≤ inputs.length) :
    before e s (inputs ++ [i]) j = before e s inputs j := by
  rw [before, before, List.take_append_of_le_length hj]

theorem snapshot_snoc {inputs : List Input} {i : Input} {j : ℕ} (hi : ¬ i.IsBack 'Z')
    (hj : CycleFrom inputs j inputs.length) :
    CycleFrom (inputs ++ [i]) j (inputs.length + 1) ∧
      before e s (inputs ++ [i]) j = before e s inputs j :=
  ⟨(cycleFrom_snoc inputs i j).mpr (.inr ⟨hj, hi⟩), before_snoc i hj.1.le⟩

theorem follows_control {inputs : List Input} (op : ServiceOp) (h : Follows e s inputs) :
    Follows e s (inputs ++ [.control op]) := by
  have hlen := length_exchange (e := e) (s := s) inputs
  have hfront : ¬ (Input.control op).IsFront := id
  have hready : ¬ (Input.control op).IsBack 'Z' := id
  have hopens : ¬ (Input.control op).Opens := by simp [Input.Opens, Input.IsBackText]
  have hshuts : ¬ (Input.control op).Shuts := by simp [Input.Shuts, Input.IsBackText]
  constructor
  all_goals simp only [exchange_snoc, exchangeStep, List.length_append, List.length_singleton]
  · rw [h.cycle, inCycle_snoc]
    tauto
  · intro hactive
    obtain ⟨j, hj, hsnap⟩ := h.snapshot hactive
    obtain ⟨h1, h2⟩ := snapshot_snoc (e := e) (s := s) hready hj
    exact ⟨j, h1, by rw [h2, hsnap]⟩
  · rw [h.transaction, observed_snoc _ _ _ _ hlen]
    simp [hopens, hshuts]
  · rw [h.decided, decidedInCycle_snoc _ _ _ _ hlen]
    simp [hready]
  · exact h.idle

theorem follows_front {inputs : List Input} {f : Frame} {m : Moment} (h : Follows e s inputs)
    (hopen : (exchange e s inputs).2.closed = false)
    (hc : (exchange e s (inputs ++ [.front f m])).2.closed = false) :
    Follows e s (inputs ++ [.front f m]) := by
  have hlen := length_exchange (e := e) (s := s) inputs
  have hready : ¬ (Input.front f m).IsBack 'Z' := id
  have hopens : ¬ (Input.front f m).Opens := by simp [Input.Opens, Input.IsBackText]
  have hshuts : ¬ (Input.front f m).Shuts := by simp [Input.Shuts, Input.IsBackText]
  simp only [exchange_snoc, exchangeStep, hopen, Bool.false_eq_true, if_false] at hc
  obtain ⟨h1, h2, h3, h4⟩ := frontStep_open hc
  constructor
  all_goals simp only [exchange_snoc, exchangeStep, hopen, Bool.false_eq_true, if_false,
    List.length_append, List.length_singleton]
  · rw [h1, inCycle_snoc]
    exact iff_of_true rfl (.inl trivial)
  · intro _
    rw [h4]
    by_cases hactive : (exchange e s inputs).2.active = true
    · obtain ⟨j, hj, hsnap⟩ := h.snapshot hactive
      obtain ⟨h5, h6⟩ := snapshot_snoc (e := e) (s := s) hready hj
      exact ⟨j, h5, by rw [if_pos hactive, h6, hsnap]⟩
    · refine ⟨inputs.length, (cycleFrom_snoc _ _ _).mpr (.inl ⟨rfl, trivial, ?_⟩), ?_⟩
      · rwa [← h.cycle]
      · rw [if_neg hactive, before_snoc _ le_rfl, before, List.take_length]
  · rw [h2, h.transaction, observed_snoc _ _ _ _ hlen]
    simp [hopens, hshuts]
  · rw [h1, h3, Bool.true_and, h.decided, decidedInCycle_snoc _ _ _ _ hlen]
    simp [hready]
  · rw [h1]
    exact fun hh => by cases hh

theorem follows_back {inputs : List Input} {f : Frame} {m : Moment} (h : Follows e s inputs)
    (hopen : (exchange e s inputs).2.closed = false)
    (hc : (exchange e s (inputs ++ [.back f m])).2.closed = false) :
    Follows e s (inputs ++ [.back f m]) := by
  have hlen := length_exchange (e := e) (s := s) inputs
  have hfront : ¬ (Input.back f m).IsFront := id
  have hisSome : (exchange e s inputs).2.active = true → (exchange e s inputs).2.snap.isSome = true := by
    intro hactive
    obtain ⟨j, -, hsnap⟩ := h.snapshot hactive
    rw [hsnap]
    rfl
  simp only [exchange_snoc, exchangeStep, hopen, Bool.false_eq_true, if_false] at hc
  obtain ⟨h1, h2, h3, h4, h5⟩ := backStep_open hisSome h.idle hc
  have hstay : (backStep e (exchange e s inputs).2 f m).2.active = true →
      (exchange e s inputs).2.active = true ∧ ¬ (Input.back f m).IsBack 'Z' := h1.mp
  constructor
  all_goals simp only [exchange_snoc, exchangeStep, hopen, Bool.false_eq_true, if_false,
    List.length_append, List.length_singleton]
  · rw [h1, h.cycle, inCycle_snoc]
    exact (iff_of_eq (false_or _)).symm
  · intro hactive
    rw [h2 hactive]
    obtain ⟨hbefore, hready⟩ := hstay hactive
    obtain ⟨j, hj, hsnap⟩ := h.snapshot hbefore
    obtain ⟨h6, h7⟩ := snapshot_snoc (e := e) (s := s) hready hj
    exact ⟨j, h6, by rw [h7, hsnap]⟩
  · rw [h3, h.transaction, observed_snoc _ _ _ _ hlen]
  · rw [decidedInCycle_snoc _ _ _ _ hlen, ← h.decided, Bool.and_eq_true, Bool.and_eq_true]
    constructor
    · rintro ⟨hactive, hdecided⟩
      obtain ⟨hbefore, hready⟩ := hstay hactive
      exact ((h4 hactive).mp hdecided).imp_right (fun hd => ⟨⟨hbefore, hd⟩, hready⟩)
    · intro hor
      have hactive : (backStep e (exchange e s inputs).2 f m).2.active = true := by
        rcases hor with ho | ⟨⟨hbefore, -⟩, hready⟩
        · obtain ⟨hC, -, -, hbefore, -⟩ := (backStep_isSome _ _ _ _).mp ho
          refine h1.mpr ⟨hbefore, ?_⟩
          rw [hC]
          decide
        · exact h1.mpr ⟨hbefore, hready⟩
      exact ⟨hactive, (h4 hactive).mpr (hor.imp_right (fun hh => hh.1.2))⟩
  · exact h5

theorem follows (service : Service) (client upstream : Sink) (inputs : List Input)
    (hopen : (exchange e (.start service client upstream) inputs).2.closed = false) :
    Follows e (.start service client upstream) inputs := by
  induction inputs using List.reverseRecOn with
  | nil =>
    constructor
    · exact iff_of_false (by simp [exchange, run, Session.start]) not_since_zero
    · simp [exchange, run, Session.start]
    · exact iff_of_false (by simp [exchange, run, Session.start]) not_since_zero
    · exact iff_of_false (by simp [exchange, run, Session.start]) not_since_zero
    · simp [exchange, run, Session.start]
  | append_singleton inputs i ih =>
    have hbefore : (exchange e (.start service client upstream) inputs).2.closed = false := by
      rw [exchange_snoc] at hopen
      exact exchangeStep_closed hopen
    cases i with
    | control op => exact follows_control op (ih hbefore)
    | done m => simp [exchange_snoc, exchangeStep, hbefore] at hopen
    | front f m => exact follows_front (ih hbefore) hbefore hopen
    | back f m => exact follows_back (ih hbefore) hbefore hopen

section Start
variable (service : Service) (client upstream : Sink) (inputs : List Input)

theorem follows_before (k : ℕ) (hk : k ≤ inputs.length)
    (hopen : (before e (.start service client upstream) inputs k).closed = false) :
    let b := before e (.start service client upstream) inputs
    let outs := (exchange e (.start service client upstream) inputs).1
    ((b k).active = true ↔ InCycle inputs k) ∧
      ((b k).active = true → ∃ j, CycleFrom inputs j k ∧ (b k).snap = some (b j).service.acquire) ∧
      ((b k).transaction = true ↔ Observed inputs outs k) ∧
      (((b k).active && (b k).decided) = true ↔ DecidedInCycle inputs outs k) ∧
      ((b k).active = false → (b k).awaiting = false) := by
  intro b outs
  have h := follows service client upstream (inputs.take k) hopen
  obtain ⟨outs', houts⟩ : ∃ outs', outs =
      (exchange e (.start service client upstream) (inputs.take k)).1 ++ outs' := by
    refine ⟨(run (exchangeStep e) (b k) (inputs.drop k)).1, ?_⟩
    have := run_append (exchangeStep e) (.start service client upstream) (inputs.take k) (inputs.drop k)
    rw [List.take_append_drop] at this
    exact congrArg Prod.fst this
  have hlen : (inputs.take k).length = k := List.length_take_of_le hk
  have hsplit : inputs = inputs.take k ++ inputs.drop k := (List.take_append_drop k inputs).symm
  have hlen' : (exchange e (.start service client upstream) (inputs.take k)).1.length =
      (inputs.take k).length := length_exchange _
  refine ⟨?_, ?_, ?_, ?_, h.idle⟩
  · rw [hsplit, inCycle_append _ _ k hlen.ge]
    have := h.cycle
    rwa [hlen] at this
  · intro hactive
    obtain ⟨j, hj, hsnap⟩ := h.snapshot hactive
    rw [hlen] at hj
    refine ⟨j, ?_, ?_⟩
    · rw [hsplit, cycleFrom_append _ _ j k hlen.ge]
      exact hj
    · rw [before, List.take_take, min_eq_left hj.1.le] at hsnap
      exact hsnap
  · rw [hsplit, houts, observed_append _ _ _ _ k hlen.ge hlen']
    have := h.transaction
    rwa [hlen] at this
  · rw [hsplit, houts, decidedInCycle_append _ _ _ _ k hlen.ge hlen']
    have := h.decided
    rwa [hlen] at this

theorem outs_getElem? {k : ℕ} {i : Input} (hi : inputs[k]? = some i) :
    (exchange e s inputs).1[k]? = some (exchangeStep e (before e s inputs k) i).1 :=
  run_getElem? _ _ _ _ _ hi

theorem decides_iff_commits (k : ℕ) : Decides (exchange e s inputs).1 k ↔
    (before e s inputs k).closed = false ∧
      ∃ f m, inputs[k]? = some (.back f m) ∧ (before e s inputs k).Commits f := by
  constructor
  · rintro ⟨o, ho, hsome⟩
    obtain ⟨i, hi⟩ : ∃ i, inputs[k]? = some i := by
      have hk : k < (exchange e s inputs).1.length := (List.getElem?_eq_some_iff.mp ho).1
      rw [length_exchange] at hk
      exact ⟨_, List.getElem?_eq_getElem hk⟩
    rw [outs_getElem? inputs hi] at ho
    cases ho
    cases hc : (before e s inputs k).closed with
    | true => cases i <;> simp [exchangeStep, hc] at hsome
    | false =>
      cases i with
      | control op => simp [exchangeStep] at hsome
      | done m => simp [exchangeStep, hc] at hsome
      | front f m => simp [exchangeStep, hc] at hsome
      | back f m =>
        simp only [exchangeStep, hc, Bool.false_eq_true, if_false, backStep_isSome] at hsome
        exact ⟨rfl, f, m, hi, hsome⟩
  · rintro ⟨hc, f, m, hi, hcommit⟩
    refine ⟨_, outs_getElem? inputs hi, ?_⟩
    simp only [exchangeStep, hc, Bool.false_eq_true, if_false]
    exact (backStep_isSome ..).mpr hcommit

/-- Which commits are decided, told from the history alone. -/
theorem decides_iff (k : ℕ) :
    let outs := (exchange e (.start service client upstream) inputs).1
    Decides outs k ↔ (before e (.start service client upstream) inputs k).closed = false ∧
      At (Input.IsBackText 'C' "COMMIT\x00") inputs k ∧ InCycle inputs k ∧ Observed inputs outs k ∧
      ¬ DecidedInCycle inputs outs k := by
  intro outs
  rw [decides_iff_commits]
  refine and_congr_right (fun hc => ?_)
  constructor
  · rintro ⟨f, m, hi, hC, hbody, htrans, hactive, hdecided⟩
    have hk : k ≤ inputs.length := (List.getElem?_eq_some_iff.mp hi).1.le
    obtain ⟨h1, -, h3, h4, -⟩ := follows_before service client upstream inputs k hk hc
    refine ⟨⟨_, hi, hC, hbody⟩, h1.mp hactive, h3.mp htrans, ?_⟩
    rw [← h4, hactive, hdecided]
    simp
  · rintro ⟨⟨i, hi, hi'⟩, hcycle, hobserved, hdecided⟩
    have hk : k ≤ inputs.length := (List.getElem?_eq_some_iff.mp hi).1.le
    obtain ⟨h1, -, h3, h4, -⟩ := follows_before service client upstream inputs k hk hc
    rw [← h4, h1.mpr hcycle, Bool.true_and, Bool.not_eq_true] at hdecided
    cases i with
    | back f m => exact ⟨f, m, hi, hi'.1, hi'.2, h3.mpr hobserved, h1.mpr hcycle, hdecided⟩
    | control op => exact hi'.elim
    | done m => exact hi'.elim
    | front f m => exact hi'.elim

theorem decides_once {j k : ℕ} (hjk : j < k)
    (hj : Decides (exchange e (.start service client upstream) inputs).1 j)
    (hk : Decides (exchange e (.start service client upstream) inputs).1 k) :
    ∃ r, j < r ∧ r < k ∧ Ready inputs r := by
  obtain ⟨-, -, -, -, hfree⟩ := (decides_iff service client upstream inputs k).mp hk
  by_contra hnone
  push Not at hnone
  exact hfree ⟨j, hjk, hj, hnone⟩

theorem decides_every
    (hsingle : ∀ j k, j < k → At (Input.IsBack 'C') inputs j → At (Input.IsBack 'C') inputs k →
      InCycle inputs j → ∃ r, j < r ∧ r < k ∧ Ready inputs r) (k : ℕ)
    (hc : (before e (.start service client upstream) inputs k).closed = false)
    (hcommit : At (Input.IsBackText 'C' "COMMIT\x00") inputs k) (hcycle : InCycle inputs k)
    (hobserved : Observed inputs (exchange e (.start service client upstream) inputs).1 k) :
    Decides (exchange e (.start service client upstream) inputs).1 k := by
  have hkind : ∀ n, At (Input.IsBackText 'C' "COMMIT\x00") inputs n → At (Input.IsBack 'C') inputs n := by
    rintro n ⟨i, hi, hi'⟩
    refine ⟨i, hi, ?_⟩
    cases i with
    | back f m => exact hi'.1
    | _ => exact hi'
  refine (decides_iff service client upstream inputs k).mpr ⟨hc, hcommit, hcycle, hobserved, ?_⟩
  rintro ⟨j, hjk, hj, hnone⟩
  obtain ⟨-, hj1, hj2, -, -⟩ := (decides_iff service client upstream inputs j).mp hj
  obtain ⟨r, h1, h2, h3⟩ := hsingle j k hjk (hkind j hj1) (hkind k hcommit) hj2
  exact hnone r h1 h2 h3

/-- The snapshot of a decision is the one acquired before the first frame of its cycle. -/
theorem decides_snapshot {k : ℕ} {d : Decision}
    (hd : (exchange e (.start service client upstream) inputs).1[k]? = some (some d)) :
    ∃ j, CycleFrom inputs j k ∧
      d = decisionOf ((before e (.start service client upstream) inputs k).service.decide e.lib
        (before e (.start service client upstream) inputs j).service.acquire e.proxyID
        ⟨[], [], [], []⟩).1 := by
  obtain ⟨hc, f, m, hi, hcommit⟩ := (decides_iff_commits inputs k).mp ⟨_, hd, rfl⟩
  have hk : k ≤ inputs.length := (List.getElem?_eq_some_iff.mp hi).1.le
  obtain ⟨-, h2, -⟩ := follows_before service client upstream inputs k hk hc
  obtain ⟨j, hj, hsnap⟩ := h2 hcommit.2.2.2.1
  refine ⟨j, hj, ?_⟩
  have hknown : ¬ f.kind ∉ backKinds := by
    rw [hcommit.1]
    decide +kernel
  rw [outs_getElem? inputs hi] at hd
  simp only [exchangeStep, hc, Bool.false_eq_true, if_false, backStep_eq, hknown, hcommit, if_true,
    commitStep_decision, Option.some.injEq] at hd
  rw [← hd, (decide_some hsnap).1]

end Start

end Run

end Faultline.PostgreSQL
