import Faultline.PostgreSQLSession
import Faultline.Since

/-! The command cycles and the explicit transactions of a PostgreSQL session, told from the
history of frames and decisions alone, and what each frame does to the flags of
`exchange`. -/
namespace Faultline.PostgreSQL

def Input.IsFront : Input → Prop
  | .front _ _ => True
  | _ => False

def Input.IsBack (kind : Char) : Input → Prop
  | .back f _ => f.kind = kind.toUInt8
  | _ => False

def Input.IsBackText (kind : Char) (text : String) : Input → Prop
  | .back f _ => f.kind = kind.toUInt8 ∧ f.body = bytesOf text
  | _ => False

/-- A `CommandComplete` of `BEGIN`, or a `ReadyForQuery` inside a transaction. -/
def Input.Opens (i : Input) : Prop :=
  i.IsBackText 'C' "BEGIN\x00" ∨ i.IsBackText 'Z' "T" ∨ i.IsBackText 'Z' "E"

/-- A `CommandComplete` of `ROLLBACK`, or a `ReadyForQuery` outside of any transaction. -/
def Input.Shuts (i : Input) : Prop :=
  i.IsBackText 'C' "ROLLBACK\x00" ∨ i.IsBackText 'Z' "I"

section History
variable (inputs : List Input) (outs : List (Option Decision))

def Ready (k : ℕ) : Prop := At (Input.IsBack 'Z') inputs k

def Decides (k : ℕ) : Prop := At (fun o => o.isSome = true) outs k

/-- A command cycle runs from a frame of the client to the next `ReadyForQuery`. -/
def InCycle (n : ℕ) : Prop := Since (At Input.IsFront inputs) (fun m => ¬ Ready inputs m) n

def First (j : ℕ) : Prop := At Input.IsFront inputs j ∧ ¬ InCycle inputs j

/-- The cycle before input `n` began with input `j`. -/
def CycleFrom (j n : ℕ) : Prop := SinceAt (First inputs) (fun m => ¬ Ready inputs m) j n

/-- An explicit transaction has been observed and, since then, neither its end nor a
decided commit. -/
def Observed (n : ℕ) : Prop :=
  Since (At Input.Opens inputs) (fun m => ¬ (At Input.Shuts inputs m ∨ Decides outs m)) n

/-- A decision has been taken in the cycle before input `n`. -/
def DecidedInCycle (n : ℕ) : Prop := Since (Decides outs) (fun m => ¬ Ready inputs m) n

end History

theorem front_not_ready (i : Input) (h : i.IsFront) : ¬ i.IsBack 'Z' := by
  cases i <;> simp_all [Input.IsFront, Input.IsBack]

theorem inCycle_iff_cycleFrom (inputs : List Input) (n : ℕ) :
    InCycle inputs n ↔ ∃ j, CycleFrom inputs j n := by
  refine since_iff_first (fun m hm => ?_) n
  obtain ⟨i, hi, hfront⟩ := hm
  rintro ⟨i', hi', hready⟩
  rw [hi] at hi'
  cases hi'
  exact front_not_ready i hfront hready

section Snoc
variable (inputs : List Input) (outs : List (Option Decision)) (i : Input) (o : Option Decision)

theorem inCycle_append (later : List Input) (n : ℕ) (hn : n ≤ inputs.length) :
    InCycle (inputs ++ later) n ↔ InCycle inputs n :=
  since_congr n (fun m hm => at_append _ _ _ m (by omega))
    (fun m hm => not_congr (at_append _ _ _ m (by omega)))

theorem cycleFrom_append (later : List Input) (j n : ℕ) (hn : n ≤ inputs.length) :
    CycleFrom (inputs ++ later) j n ↔ CycleFrom inputs j n := by
  refine sinceAt_congr j n (fun m hm => ?_) (fun m hm => not_congr (at_append _ _ _ m (by omega)))
  exact and_congr (at_append _ _ _ m (by omega)) (not_congr (inCycle_append _ _ m (by omega)))

theorem observed_append (later : List Input) (outs' : List (Option Decision)) (n : ℕ)
    (hn : n ≤ inputs.length) (hlen : outs.length = inputs.length) :
    Observed (inputs ++ later) (outs ++ outs') n ↔ Observed inputs outs n := by
  refine since_congr n (fun m hm => at_append _ _ _ m (by omega)) (fun m hm => not_congr ?_)
  exact or_congr (at_append _ _ _ m (by omega)) (at_append _ _ _ m (by omega))

theorem decidedInCycle_append (later : List Input) (outs' : List (Option Decision)) (n : ℕ)
    (hn : n ≤ inputs.length) (hlen : outs.length = inputs.length) :
    DecidedInCycle (inputs ++ later) (outs ++ outs') n ↔ DecidedInCycle inputs outs n :=
  since_congr n (fun m hm => at_append _ _ _ m (by omega))
    (fun m hm => not_congr (at_append _ _ _ m (by omega)))

theorem inCycle_snoc : InCycle (inputs ++ [i]) (inputs.length + 1) ↔
    i.IsFront ∨ InCycle inputs inputs.length ∧ ¬ i.IsBack 'Z' := by
  rw [InCycle, since_succ, ← InCycle, inCycle_append inputs [i] _ le_rfl, Ready, at_snoc, at_snoc]

theorem cycleFrom_snoc (j : ℕ) : CycleFrom (inputs ++ [i]) j (inputs.length + 1) ↔
    j = inputs.length ∧ i.IsFront ∧ ¬ InCycle inputs inputs.length ∨
      CycleFrom inputs j inputs.length ∧ ¬ i.IsBack 'Z' := by
  rw [CycleFrom, sinceAt_succ, ← CycleFrom, cycleFrom_append inputs [i] _ _ le_rfl, Ready, at_snoc, First,
    at_snoc, inCycle_append inputs [i] _ le_rfl]

theorem observed_snoc (hlen : outs.length = inputs.length) :
    Observed (inputs ++ [i]) (outs ++ [o]) (inputs.length + 1) ↔
      i.Opens ∨ Observed inputs outs inputs.length ∧ ¬ (i.Shuts ∨ o.isSome = true) := by
  rw [Observed, since_succ, ← Observed, observed_append inputs outs [i] [o] _ le_rfl hlen, at_snoc, at_snoc,
    Decides, ← hlen, at_snoc]

theorem decidedInCycle_snoc (hlen : outs.length = inputs.length) :
    DecidedInCycle (inputs ++ [i]) (outs ++ [o]) (inputs.length + 1) ↔
      o.isSome = true ∨ DecidedInCycle inputs outs inputs.length ∧ ¬ i.IsBack 'Z' := by
  rw [DecidedInCycle, since_succ, ← DecidedInCycle, decidedInCycle_append inputs outs [i] [o] _ le_rfl hlen,
    Ready, at_snoc, Decides, ← hlen, at_snoc]

end Snoc

@[simp] theorem close_closed (s : Session) (m : Moment) : (s.close m).closed = true := rfl

@[simp] theorem refuse_closed (s : Session) (m : Moment) : (s.refuse m).closed = true := rfl

theorem toClient_open {s : Session} {f : Frame} {m : Moment} (h : (s.toClient f m).closed = false) :
    s.toClient f m = { s with client := (s.client.write f.bytes).2 } := by
  unfold Session.toClient at h ⊢
  split_ifs at h ⊢
  · rfl
  · cases h

theorem toUpstream_open {s : Session} {f : Frame} {m : Moment} (h : (s.toUpstream f m).closed = false) :
    s.toUpstream f m = { s with upstream := (s.upstream.write f.bytes).2 } := by
  unfold Session.toUpstream at h ⊢
  split_ifs at h ⊢
  · rfl
  · cases h

theorem cycleStep_open {s : Session} {f : Frame} {m : Moment} (h : (cycleStep s f m).closed = false) :
    (cycleStep s f m).active = s.active ∧ (cycleStep s f m).transaction = s.transaction ∧
      (cycleStep s f m).decided = s.decided ∧ (cycleStep s f m).snap = s.snap ∧
      (cycleStep s f m).service = s.service := by
  unfold cycleStep at h ⊢
  split_ifs at h ⊢
  · cases h
  · rw [toUpstream_open h]
    exact ⟨rfl, rfl, rfl, rfl, rfl⟩

theorem frontStep_open {e : Endpoint} {s : Session} {f : Frame} {m : Moment}
    (h : (frontStep e s f m).closed = false) :
    (frontStep e s f m).active = true ∧ (frontStep e s f m).transaction = s.transaction ∧
      (frontStep e s f m).decided = (s.active && s.decided) ∧
      (frontStep e s f m).snap = (if s.active then s.snap else some s.service.acquire) := by
  unfold frontStep at h ⊢
  by_cases hquit : f.kind = 'X'.toUInt8
  · simp [hquit] at h
  by_cases hrefused : f.kind ∉ frontKinds ∨ s.awaiting = true
  · simp [hquit, hrefused] at h
  rw [if_neg hquit, if_neg hrefused] at h ⊢
  by_cases hactive : s.active = true
  · rw [if_pos hactive] at h ⊢
    obtain ⟨h1, h2, h3, h4, -⟩ := cycleStep_open h
    refine ⟨h1.trans hactive, h2, ?_, ?_⟩
    · rw [h3, hactive, Bool.true_and]
    · rw [h4, if_pos hactive]
  · rw [if_neg hactive] at h ⊢
    obtain ⟨h1, h2, h3, h4, -⟩ := cycleStep_open h
    refine ⟨h1, h2, ?_, ?_⟩
    · rw [h3, Bool.eq_false_iff.mpr hactive, Bool.false_and]
      rfl
    · rw [h4, if_neg hactive]
      rfl

def Session.Commits (s : Session) (f : Frame) : Prop :=
  f.kind = 'C'.toUInt8 ∧ f.body = bytesOf "COMMIT\x00" ∧ s.transaction = true ∧ s.active = true ∧
    s.decided = false

instance (s : Session) (f : Frame) : Decidable (s.Commits f) := by
  unfold Session.Commits
  infer_instance

def Session.observe (s : Session) (f : Frame) : Session :=
  { s with
    outcome := if f.kind = 'E'.toUInt8 then "upstream_error" else s.outcome
    transaction := if f.kind = 'C'.toUInt8 ∧ f.body = bytesOf "BEGIN\x00" then true
      else if f.kind = 'C'.toUInt8 ∧ f.body = bytesOf "ROLLBACK\x00" then false
      else s.transaction }

theorem backStep_eq (e : Endpoint) (s : Session) (f : Frame) (m : Moment) : backStep e s f m =
    if f.kind ∉ backKinds then (none, s.refuse m)
    else if s.Commits f then commitStep e s f m
    else if f.kind = 'Z'.toUInt8 then (none, readyStep s f m)
    else (none, (s.observe f).toClient f m) := by
  have hCE : 'C'.toUInt8 ≠ 'E'.toUInt8 := by decide
  have hCZ : 'C'.toUInt8 ≠ 'Z'.toUInt8 := by decide
  have hZE : 'Z'.toUInt8 ≠ 'E'.toUInt8 := by decide
  have hBC : bytesOf "BEGIN\x00" ≠ bytesOf "COMMIT\x00" := by decide +kernel
  have hRC : bytesOf "ROLLBACK\x00" ≠ bytesOf "COMMIT\x00" := by decide +kernel
  have hRB : bytesOf "ROLLBACK\x00" ≠ bytesOf "BEGIN\x00" := by decide +kernel
  unfold backStep
  by_cases hbad : f.kind ∉ backKinds
  · rw [if_pos hbad, if_pos hbad]
  rw [if_neg hbad, if_neg hbad]
  by_cases hC : f.kind = 'C'.toUInt8
  · by_cases hB : f.body = bytesOf "BEGIN\x00"
    · simp [hC, hCE, hCZ, hB, hBC, Session.Commits, Session.observe]
    by_cases hR : f.body = bytesOf "ROLLBACK\x00"
    · simp [hC, hCE, hCZ, hR, hRC, hRB, Session.Commits, Session.observe]
    · by_cases hcommit : s.Commits f
      · obtain ⟨-, h1, h2, h3, h4⟩ := hcommit
        simp [hC, hCE, h1, h2, h3, h4, Session.Commits, hBC.symm, hRC.symm]
      · have hcond : ¬ (f.body = bytesOf "COMMIT\x00" ∧ s.transaction = true ∧ s.active = true ∧
            (!s.decided) = true) := by
          rw [Bool.not_eq_true']
          exact fun hh => hcommit ⟨hC, hh⟩
        simp only [hC, hCE, hCZ, if_false, if_true, hB, hR, hcond, hcommit, Session.observe, and_false]
  · have hcommit : ¬ s.Commits f := fun hh => hC hh.1
    by_cases hE : f.kind = 'E'.toUInt8
    · simp [hE, hCE.symm, hZE.symm, hcommit, Session.observe]
    · simp [hE, hC, hcommit, Session.observe]

theorem commitStep_decision (e : Endpoint) (s : Session) (f : Frame) (m : Moment) :
    (commitStep e s f m).1 = some (s.decide e).1 := by
  unfold commitStep
  simp only
  split_ifs
  · split <;> rfl
  · rfl

theorem backStep_isSome (e : Endpoint) (s : Session) (f : Frame) (m : Moment) :
    (backStep e s f m).1.isSome = true ↔ s.Commits f := by
  rw [backStep_eq]
  by_cases hcommit : s.Commits f
  · have hknown : ¬ f.kind ∉ backKinds := by
      rw [hcommit.1]
      decide +kernel
    rw [if_neg hknown, if_pos hcommit, commitStep_decision]
    exact iff_of_true rfl hcommit
  · rw [if_neg hcommit]
    refine iff_of_false ?_ hcommit
    split_ifs <;> simp

theorem decide_eq {e : Endpoint} {s : Session} {snap : Snapshot} (h : s.snap = some snap) :
    s.decide e =
      let r := s.service.decide e.lib snap e.proxyID ⟨[], [], [], []⟩
      (decisionOf r.1, { s with service := r.2, transaction := false, decided := true }.record
        { s.event.withDecision (decisionOf r.1) with commitConfirmed := true }) := by
  unfold Session.decide
  split
  · rename_i hnone
    rw [h] at hnone
    cases hnone
  · rename_i snap' hsome
    rw [h] at hsome
    cases hsome
    rfl

theorem decide_some {e : Endpoint} {s : Session} {snap : Snapshot} (h : s.snap = some snap) :
    (s.decide e).1 = decisionOf (s.service.decide e.lib snap e.proxyID ⟨[], [], [], []⟩).1 ∧
      (s.decide e).2.active = s.active ∧ (s.decide e).2.snap = s.snap ∧
      (s.decide e).2.transaction = false ∧ (s.decide e).2.decided = true ∧
      (s.decide e).2.client = s.client ∧ (s.decide e).2.awaiting = s.awaiting := by
  rw [decide_eq h]
  exact ⟨rfl, rfl, rfl, rfl, rfl, rfl, rfl⟩

theorem commitStep_open {e : Endpoint} {s : Session} {f : Frame} {m : Moment} {snap : Snapshot}
    (hsnap : s.snap = some snap) (h : (commitStep e s f m).2.closed = false) :
    (commitStep e s f m).2.active = s.active ∧ (commitStep e s f m).2.snap = s.snap ∧
      (commitStep e s f m).2.transaction = false ∧ (commitStep e s f m).2.decided = true ∧
      (commitStep e s f m).2.awaiting = s.awaiting := by
  obtain ⟨-, h1, h2, h3, h4, -, h5⟩ := decide_some (e := e) hsnap
  unfold commitStep at h ⊢
  simp only at h ⊢
  by_cases hsel : (s.decide e).1.selected = true
  · rw [if_pos hsel] at h ⊢
    split at h
    · rw [toClient_open h]
      exact ⟨h1, h2, h3, h4, h5⟩
    · cases h
    · cases h
  · rw [if_neg hsel] at h ⊢
    rw [toClient_open h]
    exact ⟨h1, h2, h3, h4, h5⟩

theorem readyStep_open {s : Session} {f : Frame} {m : Moment} (h : (readyStep s f m).closed = false) :
    f.body.length = 1 ∧ f.body.headD 0 ∈ bytesOf "ITE" ∧ (readyStep s f m).active = false ∧
      (readyStep s f m).awaiting = false ∧
      ((readyStep s f m).transaction = true ↔ f.body.headD 0 ≠ 'I'.toUInt8) := by
  unfold readyStep at h ⊢
  by_cases hbad : f.body.length ≠ 1 ∨ f.body.headD 0 ∉ bytesOf "ITE"
  · rw [if_pos hbad] at h
    cases h
  rw [if_neg hbad] at h ⊢
  push Not at hbad
  by_cases hw : (s.client.write f.bytes).1 = true
  · rw [if_pos hw]
    exact ⟨hbad.1, hbad.2, finish_active .., finish_awaiting .., by simp⟩
  · rw [if_neg hw] at h
    cases h

theorem ready_opens (f : Frame) (m : Moment) (hz : f.kind = 'Z'.toUInt8) (hlen : f.body.length = 1)
    (hbody : f.body.headD 0 ∈ bytesOf "ITE") :
    ((Input.back f m).Opens ↔ f.body.headD 0 ≠ 'I'.toUInt8) ∧
      ((Input.back f m).Shuts ↔ f.body.headD 0 = 'I'.toUInt8) := by
  obtain ⟨b, hb⟩ := List.length_eq_one_iff.mp hlen
  have hZC : 'Z'.toUInt8 ≠ 'C'.toUInt8 := by decide
  have hI : bytesOf "I" = ['I'.toUInt8] := by decide +kernel
  have hT : bytesOf "T" = ['T'.toUInt8] := by decide +kernel
  have hE : bytesOf "E" = ['E'.toUInt8] := by decide +kernel
  have hITE : bytesOf "ITE" = ['I'.toUInt8, 'T'.toUInt8, 'E'.toUInt8] := by decide +kernel
  have hTI : 'T'.toUInt8 ≠ 'I'.toUInt8 := by decide
  have hEI : 'E'.toUInt8 ≠ 'I'.toUInt8 := by decide
  simp only [hb, List.headD_cons, hITE, List.mem_cons, List.not_mem_nil, or_false] at hbody
  simp only [Input.Opens, Input.Shuts, Input.IsBackText, hz, hZC, hb, hI, hT, hE, List.cons.injEq, and_true,
    true_and, false_and, false_or, List.headD_cons]
  constructor
  · rintro (rfl | rfl)
    · exact hTI
    · exact hEI
  · intro hne
    exact hbody.resolve_left hne

theorem backStep_open {e : Endpoint} {s : Session} {f : Frame} {m : Moment}
    (hsnap : s.active = true → s.snap.isSome = true) (hidle : s.active = false → s.awaiting = false)
    (h : (backStep e s f m).2.closed = false) :
    ((backStep e s f m).2.active = true ↔ s.active = true ∧ f.kind ≠ 'Z'.toUInt8) ∧
      ((backStep e s f m).2.active = true → (backStep e s f m).2.snap = s.snap) ∧
      ((backStep e s f m).2.transaction = true ↔ (Input.back f m).Opens ∨
        s.transaction = true ∧ ¬ ((Input.back f m).Shuts ∨ (backStep e s f m).1.isSome = true)) ∧
      ((backStep e s f m).2.active = true → ((backStep e s f m).2.decided = true ↔
        (backStep e s f m).1.isSome = true ∨ s.decided = true)) ∧
      ((backStep e s f m).2.active = false → (backStep e s f m).2.awaiting = false) := by
  have hout := backStep_isSome e s f m
  rw [hout]
  rw [backStep_eq] at h ⊢
  by_cases hbad : f.kind ∉ backKinds
  · rw [if_pos hbad] at h
    cases h
  rw [if_neg hbad] at h ⊢
  by_cases hcommit : s.Commits f
  · rw [if_pos hcommit] at h ⊢
    obtain ⟨snap, hs⟩ := Option.isSome_iff_exists.mp (hsnap hcommit.2.2.2.1)
    obtain ⟨h1, h2, h3, h4, h5⟩ := commitStep_open hs h
    obtain ⟨hC, hbody, htrans, hactive, hdecided⟩ := hcommit
    have hCZ : 'C'.toUInt8 ≠ 'Z'.toUInt8 := by decide
    have hopens : ¬ (Input.back f m).Opens := by
      simp only [Input.Opens, Input.IsBackText, hC, hbody, hCZ, false_and, or_false, not_and]
      decide +kernel
    refine ⟨by simp [h1, hC, hCZ], fun _ => h2, ?_, ?_, ?_⟩
    · rw [h3]
      refine iff_of_false (by simp) ?_
      rintro (ho | ⟨-, hn⟩)
      · exact hopens ho
      · exact hn (.inr ⟨hC, hbody, htrans, hactive, hdecided⟩)
    · intro _
      rw [h4]
      exact iff_of_true rfl (.inl ⟨hC, hbody, htrans, hactive, hdecided⟩)
    · rw [h1, h5]
      exact hidle
  rw [if_neg hcommit] at h ⊢
  simp only [hcommit, or_false, false_or]
  by_cases hz : f.kind = 'Z'.toUInt8
  · rw [if_pos hz] at h ⊢
    obtain ⟨hlen, hbody, h1, h2, h3⟩ := readyStep_open h
    obtain ⟨hopens, hshuts⟩ := ready_opens f m hz hlen hbody
    refine ⟨by simp [h1, hz], by simp [h1], ?_, by simp [h1], fun _ => h2⟩
    rw [h3, hopens, hshuts]
    tauto
  · rw [if_neg hz] at h ⊢
    rw [toClient_open h]
    refine ⟨by simp [Session.observe, hz], fun _ => rfl, ?_, fun _ => Iff.rfl, hidle⟩
    simp only [Session.observe, Input.Opens, Input.Shuts, Input.IsBackText, hz, false_and, or_false]
    split_ifs with hB hR
    · exact iff_of_true rfl (.inl hB)
    · exact iff_of_false (by simp) (by tauto)
    · tauto

end Faultline.PostgreSQL
