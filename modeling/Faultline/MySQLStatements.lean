import Faultline.MySQLResponse
import Faultline.MySQLTracking

/-! The prepared statements of a MySQL session. The table mirrors the one of the server: what it
holds before a command is told from the commands and responses so far. -/
namespace Faultline.MySQL

/-- As many definitions as a count announces, and before `DEPRECATE_EOF` the packet that ends them. -/
def Announced (modern : Bool) (n : ℕ) (l : List Packet) : Prop :=
  ∃ packets tail, l = packets ++ tail ∧ packets.length = n ∧ NoError packets ∧
    if 0 < n ∧ ¬ modern then ∃ p status, tail = [p] ∧ IsEOF false p.body status else tail = []

structure CompletePrepare (modern : Bool) (id : ℕ) (taken : List Packet) : Prop where
  numbered : Numbered 1 taken
  packets : ∃ first params columns, taken = first :: (params ++ columns) ∧ first.code = 0 ∧
    first.body.length = 12 ∧ uint32At first.body 1 = id ∧
    Announced modern (uint16At first.body 7) params ∧ Announced modern (uint16At first.body 5) columns

theorem definitions_announced {modern : Bool} {n : ℕ} {l : List Packet} (h : Definitions modern n l) :
    Announced modern n l := by
  obtain ⟨packets, tail, hl, hlength, hall, htail⟩ := h
  exact ⟨packets, tail, hl, hlength, fun p hp => isDefinition_code (hall p hp), htail⟩

theorem response_complete (modern : Bool) (statements : OrdMap ℕ Statement) (command : Packet)
    (response : List Packet) (status : Option ℕ) (hcommand : command.code = 0x16)
    (h : Response modern statements command response status) (hseq : Numbered 1 response) :
    (∃ p, response = [p] ∧ p.code = 0xff) ∨ ∃ id, CompletePrepare modern id response := by
  cases h with
  | nothing hclose =>
    rw [hcommand] at hclose
    cases hclose
  | error first _ hfirst => exact .inl ⟨first, rfl, hfirst⟩
  | ok first status hother => exact absurd hcommand hother.2
  | prepare first params columns id n m warnings filler _ hbody hid hfresh hn hm hparams hcolumns =>
    obtain ⟨hcode, hlength, hid', hn', hm'⟩ := preparedBody_fields first id m n warnings filler hbody hid
      (by omega) (by omega)
    refine .inr ⟨id, hseq, first, params, columns, rfl, hcode, hlength, hid', ?_, ?_⟩
    · rw [hn']
      exact definitions_announced hparams
    · rw [hm']
      exact definitions_announced hcolumns
  | resultSet first l n status hother => exact absurd hcommand hother.2

structure Took (x t : Cycle) (l : List Packet) : Prop where
  taken : t.taken = x.taken ++ l
  numbered : Numbered x.seq l
  seq : t.seq = x.seq + UInt8.ofNat l.length

theorem took_nil (x t : Cycle) (htaken : t.taken = x.taken) (hseq : t.seq = x.seq) : Took x t [] :=
  ⟨by rw [htaken, List.append_nil], trivial, by simp [hseq]⟩

theorem took_append {x y z : Cycle} {l l' : List Packet} (h : Took x y l) (h' : Took y z l') :
    Took x z (l ++ l') where
  taken := by rw [h'.taken, h.taken, List.append_assoc]
  numbered := by
    rw [numbered_append]
    exact ⟨h.numbered, h.seq ▸ h'.numbered⟩
  seq := by rw [h'.seq, h.seq, List.length_append, seq_add]

theorem took_read {x t : Cycle} {p : Packet} (h : read x = .ok p t) : Took x t [p] := by
  rw [read_apply] at h
  split at h
  · cases h
  · split_ifs at h with hseq
    cases h
    exact ⟨rfl, ⟨hseq, trivial⟩, rfl⟩

theorem took_forward {x t : Cycle} {p : Packet} (h : forward p x = .ok () t) : Took x t [] := by
  rw [forward_apply] at h
  split_ifs at h
  cases h
  exact took_nil _ _ rfl rfl

theorem took_definitionPackets (n : ℕ) {x t : Cycle} (h : definitionPackets n x = .ok () t) :
    ∃ l, Took x t l ∧ l.length = n ∧ NoError l := by
  induction n generalizing x with
  | zero =>
    cases h
    exact ⟨[], took_nil _ _ rfl rfl, rfl, by simp [NoError]⟩
  | succ n ih =>
    rw [definitionPackets, bind_eq_returned] at h
    obtain ⟨p, y, hread, h⟩ := h
    split_ifs at h with hcode
    · cases h
    rw [bind_eq_returned] at h
    obtain ⟨⟨⟩, z, hforward, h⟩ := h
    obtain ⟨l, hl, hlength, hno⟩ := ih h
    refine ⟨[p] ++ l, ?_, by simp [hlength], ?_⟩
    · have hz := took_append (took_read hread) (took_forward hforward)
      rw [List.append_nil] at hz
      exact took_append hz hl
    · exact (noError_append _ _).mpr ⟨(noError_singleton p).mpr hcode, hno⟩

theorem took_definitions (modern : Bool) (n : ℕ) {x t : Cycle} (h : definitions modern n x = .ok () t) :
    ∃ l, Took x t l ∧ Announced modern n l := by
  by_cases hmax : 4096 < n
  · simp [definitions, hmax, bind_apply] at h
  simp only [definitions, if_neg hmax] at h
  rw [bind_eq_returned] at h
  obtain ⟨⟨⟩, y, hpackets, h⟩ := h
  obtain ⟨l, hl, hlength, hno⟩ := took_definitionPackets n hpackets
  split_ifs at h with heof
  · rw [bind_eq_returned] at h
    obtain ⟨p, z, hread, h⟩ := h
    cases hstatus : eofStatus p.body false with
    | none => simp [hstatus, bind_apply] at h
    | some status =>
      simp only [hstatus, reduceCtorEq, if_false] at h
      refine ⟨l ++ [p], ?_, l, [p], rfl, hlength, hno, ?_⟩
      · have hz := took_append (took_append hl (took_read hread)) (took_forward h)
        rwa [List.append_nil] at hz
      · rw [if_pos heof]
        exact ⟨p, status, rfl, (eofStatus_eq_some_iff _ _ _).mp hstatus⟩
  · cases h
    exact ⟨l, hl, l, [], by rw [List.append_nil], hlength, hno, by rw [if_neg heof]⟩

theorem prepared_complete (modern : Bool) (kind : Statement) (first : Packet) {s t : Session}
    (h : prepared modern kind first s = .ok () t) (hfirst : s.cycle.taken = [first])
    (hnumber : first.seq = 1) (hseq : s.cycle.seq = 2) :
    ∃ id, CompletePrepare modern id t.cycle.taken ∧ s.statements.get? id = none ∧
      t.statements = s.statements.insert id kind := by
  by_cases hbad : first.body.length ≠ 12 ∨ first.code ≠ 0
  · simp [prepared, hbad, bind_apply] at h
  by_cases hknown : (s.statements.get? (uint32At first.body 1)).isSome = true
  · simp [prepared, hbad, bind_apply, hknown] at h
  simp only [prepared, hbad, if_false] at h
  rw [bind_ok (get_apply s)] at h
  simp only [hknown, Bool.false_eq_true, if_false] at h
  rw [not_or, not_not, not_not] at hbad
  rw [bind_eq_returned] at h
  obtain ⟨⟨⟩, s1, h1, h⟩ := h
  obtain ⟨x1, hforward, rfl⟩ := onCycle_returned h1
  rw [bind_eq_returned] at h
  obtain ⟨⟨⟩, s2, h2, h⟩ := h
  obtain ⟨x2, hparams, rfl⟩ := onCycle_returned h2
  rw [bind_eq_returned] at h
  obtain ⟨⟨⟩, s3, h3, h⟩ := h
  obtain ⟨x3, hcolumns, rfl⟩ := onCycle_returned h3
  cases h
  obtain ⟨params, htook, hannounced⟩ := took_definitions modern _ hparams
  obtain ⟨columns, htook', hannounced'⟩ := took_definitions modern _ hcolumns
  have hall := took_append (took_append (took_forward hforward) htook) htook'
  rw [List.nil_append] at hall
  have htaken : x3.taken = first :: (params ++ columns) := by
    rw [hall.taken, hfirst]
    rfl
  refine ⟨uint32At first.body 1, ⟨?_, first, params, columns, htaken, hbad.2, hbad.1, rfl, hannounced, hannounced'⟩,
    ?_, rfl⟩
  · rw [htaken]
    refine ⟨hnumber, ?_⟩
    have hrest := hall.numbered
    rw [hseq] at hrest
    exact hrest
  · simpa using hknown

/-- A prepare command that completes: its response is an error, or complete for a new ID. -/
theorem serveCommand_prepare (e : Endpoint) (w : Surroundings) (snap : Snapshot) (command : Packet)
    (kind : Statement) (s t : Session) (htaken : s.cycle.taken = []) (hseq : s.cycle.seq = 1)
    (hcommand : command.code = 0x16) (h : serveCommand e w snap command kind s = .ok () t) :
    (∃ first, t.cycle.taken = [first] ∧ first.code = 0xff ∧ t.statements = s.statements) ∨
      ∃ id, CompletePrepare e.modern id t.cycle.taken ∧ s.statements.get? id = none ∧
        t.statements = s.statements.insert id kind := by
  rw [serveCommand, bind_eq_returned] at h
  obtain ⟨⟨⟩, s1, hwrite, h⟩ := h
  rw [writeUpstream_apply] at hwrite
  split_ifs at hwrite
  cases hwrite
  rw [if_neg (by rw [hcommand]; decide), bind_eq_returned] at h
  obtain ⟨first, s2, hread, h⟩ := h
  obtain ⟨x, hx, rfl⟩ := onCycle_returned hread
  have hfirst := took_read hx
  have hx1 : x.taken = [first] := by rw [hfirst.taken, htaken]; rfl
  have hx2 : x.seq = 2 := by rw [hfirst.seq, hseq]; rfl
  have hnumber : first.seq = 1 := hfirst.numbered.1.trans hseq
  unfold respond at h
  by_cases herr : first.code = 0xff
  · rw [if_pos herr, bind_ok (modify_apply _ _)] at h
    obtain ⟨y, hy, rfl⟩ := onCycle_returned h
    exact .inl ⟨first, (forward_returned hy).trans hx1, herr, rfl⟩
  · rw [if_neg herr, if_pos hcommand] at h
    have hdone := prepared_complete e.modern kind first h hx1 hnumber hx2
    exact .inr hdone

def CycleRecord.Prepares (modern : Bool) (id : ℕ) (r : CycleRecord) : Prop :=
  r.command.code = 0x16 ∧ CompletePrepare modern id r.taken

def CycleRecord.Closes (id : ℕ) (r : CycleRecord) : Prop :=
  r.command.code = 0x19 ∧ uint32At r.command.body 1 = id

def CycleRecord.Resets (r : CycleRecord) : Prop := r.command.code = 0x1f ∧ ∃ status, r.Acknowledged status

/-- The statement is prepared with this text: it was prepared, and since then neither closed nor
cleared by a reset. -/
def Live (modern : Bool) (history : List CycleRecord) (id : ℕ) (text : Bytes) : Prop :=
  ∃ (k : ℕ) (r : CycleRecord), history[k]? = some r ∧ r.Prepares modern id ∧ text = r.command.body.tail ∧
    ∀ (j : ℕ) (r' : CycleRecord), k < j → history[j]? = some r' → ¬ r'.Closes id ∧ ¬ r'.Resets

theorem live_snoc (modern : Bool) (history : List CycleRecord) (r : CycleRecord) (id : ℕ) (text : Bytes) :
    Live modern (history ++ [r]) id text ↔ r.Prepares modern id ∧ text = r.command.body.tail ∨
      Live modern history id text ∧ ¬ r.Closes id ∧ ¬ r.Resets := by
  constructor
  · rintro ⟨k, r', hk, hprepares, htext, hsince⟩
    by_cases hlt : k < history.length
    · rw [List.getElem?_append_left hlt] at hk
      refine .inr ⟨⟨k, r', hk, hprepares, htext, ?_⟩, hsince history.length r hlt (by simp)⟩
      intro j r'' hj hr''
      have hjlt := (List.getElem?_eq_some_iff.mp hr'').1
      exact hsince j r'' hj (by rw [List.getElem?_append_left hjlt, hr''])
    · obtain rfl : k = history.length := by
        have hle := (List.getElem?_eq_some_iff.mp hk).1
        rw [List.length_append, List.length_singleton] at hle
        omega
      rw [List.getElem?_concat_length, Option.some.injEq] at hk
      exact .inl ⟨hk ▸ hprepares, hk ▸ htext⟩
  · rintro (⟨hprepares, htext⟩ | ⟨⟨k, r', hk, hprepares, htext, hsince⟩, hlast⟩)
    · refine ⟨history.length, r, by simp, hprepares, htext, ?_⟩
      intro j r' hj hr'
      rw [List.getElem?_eq_none (by simp; omega)] at hr'
      cases hr'
    · have hlt := (List.getElem?_eq_some_iff.mp hk).1
      refine ⟨k, r', by rw [List.getElem?_append_left hlt, hk], hprepares, htext, ?_⟩
      intro j r'' hj hr''
      by_cases hjlt : j < history.length
      · rw [List.getElem?_append_left hjlt] at hr''
        exact hsince j r'' hj hr''
      · obtain rfl : j = history.length := by
          have hle := (List.getElem?_eq_some_iff.mp hr'').1
          rw [List.length_append, List.length_singleton] at hle
          omega
        rw [List.getElem?_concat_length, Option.some.injEq] at hr''
        exact hr'' ▸ hlast

def Mirrors (modern : Bool) (history : List CycleRecord) (statements : OrdMap ℕ Statement) : Prop :=
  ∀ id kind, statements.get? id = some kind ↔ ∃ text, Live modern history id text ∧ classify text = kind

theorem completePrepare_code {modern : Bool} {id : ℕ} {first : Packet} {rest : List Packet}
    (h : CompletePrepare modern id (first :: rest)) : first.code = 0 ∧ id = uint32At first.body 1 := by
  obtain ⟨-, first', params, columns, heq, hcode, -, hid, -⟩ := h
  obtain ⟨rfl, -⟩ := List.cons.inj heq
  exact ⟨hcode, hid.symm⟩

theorem mirrors_kept {modern : Bool} {history : List CycleRecord} {statements : OrdMap ℕ Statement}
    {r : CycleRecord} (h : Mirrors modern history statements) (hprepares : ∀ id, ¬ r.Prepares modern id)
    (hcloses : ∀ id, ¬ r.Closes id) (hresets : ¬ r.Resets) : Mirrors modern (history ++ [r]) statements := by
  intro id kind
  rw [h id kind]
  simp only [live_snoc, hprepares, hcloses, hresets, false_and, false_or, not_false_eq_true, and_true]

theorem mirrors_prepare {modern : Bool} {history : List CycleRecord} {statements statements' : OrdMap ℕ Statement}
    {r : CycleRecord} (h : Mirrors modern history statements) (hcommand : r.command.code = 0x16)
    (hcase : (∃ first, r.taken = [first] ∧ first.code = 0xff ∧ statements' = statements) ∨
      ∃ id, CompletePrepare modern id r.taken ∧ statements.get? id = none ∧
        statements' = statements.insert id (classify r.command.body.tail)) :
    Mirrors modern (history ++ [r]) statements' := by
  have hcloses (id : ℕ) : ¬ r.Closes id := by
    rintro ⟨hclose, -⟩
    rw [hcommand] at hclose
    cases hclose
  have hresets : ¬ r.Resets := by
    rintro ⟨hreset, -⟩
    rw [hcommand] at hreset
    cases hreset
  rcases hcase with ⟨first, htaken, hcode, rfl⟩ | ⟨new, hcomplete, hfresh, rfl⟩
  · refine mirrors_kept h ?_ hcloses hresets
    rintro id ⟨-, hcomplete⟩
    rw [htaken] at hcomplete
    have hzero := (completePrepare_code hcomplete).1
    rw [hcode] at hzero
    cases hzero
  · have hprepares (id : ℕ) : r.Prepares modern id ↔ id = new := by
      constructor
      · rintro ⟨-, hother⟩
        obtain ⟨first, params, columns, htaken, -⟩ := hcomplete.packets
        rw [htaken] at hother hcomplete
        exact (completePrepare_code hother).2.trans (completePrepare_code hcomplete).2.symm
      · rintro rfl
        exact ⟨hcommand, hcomplete⟩
    intro id kind
    simp only [live_snoc, hprepares, hcloses, hresets, not_false_eq_true, and_true]
    rw [OrdMap.get?_insert]
    by_cases heq : id = new
    · -- the ID was free, so that no older text is live
      subst heq
      have hnone (text : Bytes) : ¬ Live modern history id text := by
        intro hlive
        have hsome := (h id (classify text)).mpr ⟨text, hlive, rfl⟩
        rw [hfresh] at hsome
        cases hsome
      simp only [if_true, hnone, or_false, true_and, exists_eq_left, Option.some.injEq]
    · simp only [heq, false_and, false_or, if_false]
      exact h id kind

theorem mirrors_other {modern : Bool} {history : List CycleRecord} {statements statements' : OrdMap ℕ Statement}
    {r : CycleRecord} {kind : Statement} {transaction transaction' : Bool}
    (h : Mirrors modern history statements) (hcommand : r.command.code ≠ 0x16)
    (hcase : Completed modern r.command kind transaction statements r.taken transaction' statements') :
    Mirrors modern (history ++ [r]) statements' := by
  have hprepares (id : ℕ) : ¬ r.Prepares modern id := fun hp => hcommand hp.1
  have hunclosed (hnot : r.command.code ≠ 0x19) (id : ℕ) : ¬ r.Closes id := fun hc => hnot hc.1
  generalize htaken : r.taken = taken at hcase
  -- without an OK packet nothing is reset
  have hunreset (hno : ∀ status, ¬ OKReply taken status) : ¬ r.Resets := by
    rintro ⟨-, status, -, hok⟩
    rw [htaken] at hok
    exact hno status hok
  cases hcase with
  | close hclose =>
    have hresets : ¬ r.Resets := by
      rintro ⟨hreset, -⟩
      rw [hclose] at hreset
      cases hreset
    intro id k
    simp only [live_snoc, hprepares, hresets, false_and, false_or, not_false_eq_true, and_true]
    rw [OrdMap.get?_erase]
    by_cases heq : id = uint32At r.command.body 1
    · have hcloses : r.Closes id := ⟨hclose, heq.symm⟩
      simp only [if_pos heq, hcloses, not_true_eq_false, and_false, false_and, exists_false, reduceCtorEq]
    · have hcloses : ¬ r.Closes id := fun hc => heq hc.2.symm
      simp only [if_neg heq, hcloses, not_false_eq_true, and_true]
      exact h id k
  | error first hclose hfirst =>
    exact mirrors_kept h hprepares (hunclosed hclose)
      (hunreset (not_okReply first [] (by rw [hfirst]; decide)))
  | prepare first rest hprepare => exact absurd hprepare hcommand
  | ok first status hother hseq hok hmore =>
    by_cases hreset : r.command.code = 0x1f
    · have hresets : r.Resets :=
        ⟨hreset, status, hcommand, by rw [htaken]; exact ⟨first, [], rfl, hseq, hok⟩⟩
      intro id k
      simp only [live_snoc, hprepares, hresets, not_true_eq_false, and_false, false_and, or_false, exists_false,
        if_pos hreset, OrdMap.get?_empty, reduceCtorEq]
    · rw [if_neg hreset]
      exact mirrors_kept h hprepares (hunclosed hother.1) (fun hr => hreset hr.1)
  | resultError first last l hother hfirst =>
    exact mirrors_kept h hprepares (hunclosed hother.1) (hunreset (not_okReply first _ hfirst))
  | resultSet first last l status hother hfirst =>
    exact mirrors_kept h hprepares (hunclosed hother.1) (hunreset (not_okReply first _ hfirst.1))

def Alters (command : Packet) (kind : Statement) (statements statements' : OrdMap ℕ Statement) : Prop :=
  statements' = statements ∨ (∃ id, statements' = statements.erase id) ∨ statements' = ∅ ∨
    command.code = 0x16 ∧ ∃ id, statements' = statements.insert id kind

def SameStatements (s t : Session) : Prop := t.statements = s.statements

instance : Std.Refl SameStatements := ⟨fun _ => rfl⟩

instance : IsTrans Session SameStatements := ⟨fun _ _ _ h h' => h'.trans h⟩

theorem onCycle_same {α : Type} (m : EStateM SessionError Cycle α) : Keeps SameStatements (onCycle m) := by
  intro s
  rw [finalState_onCycle]
  rfl

theorem onCycle_bind {α β : Type} (m : EStateM SessionError Cycle α) (f : α → EStateM SessionError Session β)
    (s : Session) (P : OrdMap ℕ Statement → Prop) (hs : P s.statements)
    (hf : ∀ a t, t.statements = s.statements → P (finalState (f a t)).statements) :
    P (finalState ((onCycle m >>= f) s)).statements := by
  have hsame := onCycle_same m s
  rw [bind_apply]
  cases h : onCycle m s with
  | error e t =>
    rw [h] at hsame
    exact hsame ▸ hs
  | ok a t =>
    rw [h] at hsame
    exact hf a t hsame

theorem prepared_alters (modern : Bool) (command : Packet) (kind : Statement) (first : Packet) (s : Session)
    (hcommand : command.code = 0x16) :
    Alters command kind s.statements (finalState (prepared modern kind first s)).statements := by
  have hsame : Alters command kind s.statements s.statements := .inl rfl
  by_cases hbad : first.body.length ≠ 12 ∨ first.code ≠ 0
  · simpa [prepared, hbad, bind_apply] using hsame
  by_cases hknown : (s.statements.get? (uint32At first.body 1)).isSome = true
  · simpa [prepared, hbad, bind_apply, hknown] using hsame
  simp only [prepared, hbad, if_false]
  rw [bind_ok (get_apply s)]
  simp only [hknown, Bool.false_eq_true, if_false]
  refine onCycle_bind _ _ s _ hsame (fun _ s1 h1 => ?_)
  refine onCycle_bind _ _ s1 _ (h1 ▸ hsame) (fun _ s2 h2 => ?_)
  refine onCycle_bind _ _ s2 _ (h2.trans h1 ▸ hsame) (fun _ s3 h3 => ?_)
  refine .inr (.inr (.inr ⟨hcommand, uint32At first.body 1, ?_⟩))
  rw [modify_apply, finalState_ok, h3, h2, h1]

theorem acknowledged_alters (e : Endpoint) (w : Surroundings) (snap : Snapshot) (command first : Packet)
    (kind : Statement) (s : Session) : Alters command kind s.statements
      (finalState (acknowledged e w snap command kind first s)).statements := by
  have hsame : Alters command kind s.statements s.statements := .inl rfl
  cases hstatus : okStatus first.body with
  | none => simpa [acknowledged, hstatus] using hsame
  | some status =>
    cases hmore : moreResults status with
    | true => simpa [acknowledged, hstatus, hmore, bind_apply] using hsame
    | false =>
      rw [(acknowledged_final e w snap command first kind s status hstatus hmore).2.2.1]
      split_ifs
      · exact .inr (.inr (.inl rfl))
      · exact hsame

theorem resultSet_same (modern : Bool) (first : Packet) : Keeps SameStatements (resultSet modern first) := by
  have hset : Keeps SameStatements (setTransaction false) := .modify (fun _ => rfl)
  refine (onCycle_same (result modern first)).captureError.bind (fun r => ?_)
  cases r with
  | error e => exact hset.bind (fun _ => .throw e)
  | ok out =>
    obtain ⟨status, ok, err⟩ := out
    refine Keeps.ite (hset.bind (fun _ => ?_)) ?_
    all_goals
      cases err with
      | error e => exact .throw e
      | ok _ => exact .pure ()

theorem serveCommand_alters (e : Endpoint) (w : Surroundings) (snap : Snapshot) (command : Packet)
    (kind : Statement) (s : Session) : Alters command kind s.statements
      (finalState (serveCommand e w snap command kind s)).statements := by
  have hsame : Alters command kind s.statements s.statements := .inl rfl
  rw [serveCommand, bind_apply, writeUpstream_apply]
  by_cases hwrite : (s.upstream.write command.bytes).1 = true
  swap
  · rw [if_neg hwrite]
    exact hsame
  rw [if_pos hwrite]
  by_cases hclose : command.code = 0x19
  · simp only [if_pos hclose, modify_apply]
    exact .inr (.inl ⟨_, rfl⟩)
  simp only [if_neg hclose]
  refine onCycle_bind _ _ { s with upstream := (s.upstream.write command.bytes).2 } _ hsame (fun first t ht => ?_)
  have hthen : Alters command kind t.statements (finalState (respond e w snap command kind first t)).statements := by
    unfold respond
    split_ifs with herr hprepare hinfile hzero
    · rw [bind_ok (modify_apply _ _), onCycle_same (forward first)]
      exact .inl rfl
    · exact prepared_alters e.modern command kind first t hprepare
    · exact .inl rfl
    · exact acknowledged_alters e w snap command first kind t
    · exact .inl (resultSet_same e.modern first t)
  rwa [ht] at hthen

structure Bounded (statements : OrdMap ℕ Statement) : Prop where
  size : statements.size ≤ 128
  supported : ∀ id, statements.get? id ≠ some .unsupported

theorem admission_room (statements : OrdMap ℕ Statement) (p : Packet) (kind : Statement)
    (h : admission statements p = .serve kind) (hp : p.code = 0x16) :
    statements.size < 128 ∧ kind ≠ .unsupported := by
  have hkind := admission_prepare statements p kind h hp
  unfold admission at h
  split_ifs at h with hseq hquit htext hunsupported hfull
  · refine ⟨?_, hkind ▸ hunsupported⟩
    rw [not_and, Nat.not_le] at hfull
    exact hfull hp
  all_goals exact absurd (.inr hp) htext

theorem bounded_alters {command : Packet} {kind : Statement} {statements statements' : OrdMap ℕ Statement}
    (h : Bounded statements) (hserve : admission statements command = .serve kind)
    (halters : Alters command kind statements statements') : Bounded statements' := by
  rcases halters with rfl | ⟨id, rfl⟩ | rfl | ⟨hcommand, id, rfl⟩
  · exact h
  · refine ⟨(OrdMap.size_erase_le _ id).trans h.size, ?_⟩
    intro j
    rw [OrdMap.get?_erase]
    split_ifs
    · simp
    · exact h.supported j
  · exact ⟨by simp, by simp⟩
  · obtain ⟨hroom, hkind⟩ := admission_room statements command kind hserve hcommand
    refine ⟨(OrdMap.size_insert_le _ id kind).trans hroom, ?_⟩
    intro j
    rw [OrdMap.get?_insert]
    split_ifs
    · simpa using hkind
    · exact h.supported j

structure Keeping (modern : Bool) (history : List CycleRecord) (s : Session) : Prop where
  mirrors : s.closed = false → Mirrors modern history s.statements
  bounded : Bounded s.statements

theorem keeping_step (e : Endpoint) (history : List CycleRecord) (s : Session)
    (input : Packet × Surroundings) (h : Keeping e.modern history s) :
    Keeping e.modern (history ++ (exchangeStep e s input).1.toList) (exchangeStep e s input).2 := by
  obtain ⟨command, w⟩ := input
  unfold exchangeStep
  cases hopen : s.closed with
  | true => simpa using h
  | false =>
    simp only [Bool.false_eq_true, if_false]
    cases hadm : admission s.statements command with
    | quit => exact ⟨fun hh => (by cases hh), h.bounded⟩
    | refuse => exact ⟨fun hh => (by cases hh), h.bounded⟩
    | serve kind =>
      simp only [Option.toList_some]
      set start := s.begin e w with hstart
      set run := serveCommand e w start.service.acquire command kind start with hrun
      refine ⟨fun hclosed => ?_, ?_⟩
      · have hnone : stopError run = none := by simpa [Session.finish] using hclosed
        have hreturned : run = .ok () (finalState run) := by
          cases hcase : run with
          | ok a t => rfl
          | error err t =>
            rw [hcase] at hnone
            cases hnone
        by_cases hprepare : command.code = 0x16
        · have hkind := admission_prepare s.statements command kind hadm hprepare
          have hdone := serveCommand_prepare e w start.service.acquire command kind start (finalState run) rfl rfl
            hprepare hreturned
          rw [hkind] at hdone
          exact mirrors_prepare (r := ⟨command, (finalState run).cycle.taken, (finalState run).decisions,
            stopError run⟩) (h.mirrors hopen) hprepare hdone
        · have hdone := serveCommand_completed e w start.service.acquire command kind start (finalState run) rfl rfl
            hreturned
          exact mirrors_other (r := ⟨command, (finalState run).cycle.taken, (finalState run).decisions,
            stopError run⟩) (h.mirrors hopen) hprepare hdone
      · have halters := serveCommand_alters e w start.service.acquire command kind start
        exact bounded_alters h.bounded hadm halters

theorem keeping_run (e : Endpoint) (service : Service) (client upstream : Sink) (back : List Packet)
    (inputs : List (Packet × Surroundings)) :
    Keeping e.modern (exchange e (.start service client upstream back) inputs).1.reduceOption
      (exchange e (.start service client upstream back) inputs).2 := by
  set s := Session.start service client upstream back
  induction inputs using List.reverseRecOn with
  | nil =>
    refine ⟨fun _ id kind => ?_, ⟨Nat.zero_le _, fun id => ?_⟩⟩
    · refine iff_of_false (by simp [exchange, run, s, Session.start]) ?_
      rintro ⟨text, ⟨k, r, hk, -⟩, -⟩
      cases hk
    · simp [exchange, run, s, Session.start]
  | append_singleton inputs input ih =>
    have hstep := keeping_step e _ _ input ih
    have hsnoc : exchange e s (inputs ++ [input]) =
        ((exchange e s inputs).1 ++ [(exchangeStep e (exchange e s inputs).2 input).1],
          (exchangeStep e (exchange e s inputs).2 input).2) := run_snoc _ _ _ _
    rw [hsnoc, List.reduceOption_append]
    cases ho : (exchangeStep e (exchange e s inputs).2 input).1 <;> simpa [ho] using hstep

theorem execute_refused (statements : OrdMap ℕ Statement) (command : Packet) (hcommand : command.code = 0x17)
    (hunknown : statements.get? (uint32At command.body 1) = none) : admission statements command = .refuse := by
  unfold admission
  rw [hcommand, hunknown]
  split_ifs <;> first | rfl | simp_all

/-- The table of prepared statements at the start of a command, after any commands and responses. -/
structure StatementLaw (modern : Bool) (history : List CycleRecord) (e : Endpoint) (s : Session) : Prop where
  /-- The table holds exactly the statements that are prepared, with the kinds of their texts. -/
  exactly : s.closed = false → ∀ id kind, s.statements.get? id = some kind ↔
    ∃ text, Live modern history id text ∧ classify text = kind
  size : s.statements.size ≤ 128
  supported : ∀ id, s.statements.get? id ≠ some .unsupported
  /-- An execute command for any other ID is not forwarded. -/
  execute : ∀ command w, command.code = 0x17 → s.statements.get? (uint32At command.body 1) = none →
    (exchangeStep e s (command, w)).1 = none ∧ (exchangeStep e s (command, w)).2.upstream = s.upstream ∧
      (exchangeStep e s (command, w)).2.closed = true

end Faultline.MySQL
