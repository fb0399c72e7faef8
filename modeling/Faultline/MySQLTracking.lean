import Faultline.MySQLCommand
import Faultline.Since

/-! Which commits of a session are decided. The conditions are told from the history of
commands and received packets alone; the variables of `exchange` follow them. -/
namespace Faultline.MySQL

def CycleRecord.preparedID (r : CycleRecord) : Option ℕ :=
  match r.taken with
  | first :: _ =>
    if r.command.code = 0x16 ∧ r.error = none ∧ first.code = 0 then some (uint32At first.body 1)
    else none
  | [] => none

/-- The text of the prepare command that produced a statement ID, the last one if the
ID was used again. -/
def preparedText (history : List CycleRecord) (id : ℕ) : Option Bytes :=
  (history.reverse.find? (fun r => r.preparedID = some id)).map (fun r => r.command.body.tail)

def statementKind (history : List CycleRecord) (command : Packet) : Statement :=
  if command.code = 3 then classify command.body.tail
  else if command.code = 0x17 then
    ((preparedText history (uint32At command.body 1)).map classify).getD .ordinary
  else .ordinary

def kindAt (history : List CycleRecord) (i : ℕ) : Statement :=
  match history[i]? with
  | some r => statementKind (history.take i) r.command
  | none => .ordinary

def CycleRecord.Acknowledged (r : CycleRecord) (status : ℕ) : Prop :=
  r.command.code ≠ 0x16 ∧ OKReply r.taken status

def CycleRecord.Status (modern : Bool) (r : CycleRecord) (status : ℕ) : Prop :=
  r.Acknowledged status ∨ r.command.code ≠ 0x16 ∧ ∃ first l last, r.taken = first :: (l ++ [last]) ∧
    first.code ≠ 0 ∧ IsEOF modern last.body status

def Begins (history : List CycleRecord) (i : ℕ) : Prop :=
  ∃ r status, history[i]? = some r ∧ kindAt history i = .begin ∧ r.Acknowledged status ∧
    inTrans status = true

/-- The response leaves the transaction open: no error, no status without the
transaction, no acknowledged rollback and no acknowledged reset of the connection. -/
def Continues (modern : Bool) (history : List CycleRecord) (i : ℕ) : Prop :=
  ∀ r, history[i]? = some r → NoError r.taken ∧ (∀ status, r.Status modern status → inTrans status = true) ∧
    ¬ (kindAt history i = .rollback ∧ ∃ status, r.Acknowledged status) ∧
    ¬ (r.command.code = 0x1f ∧ ∃ status, r.Acknowledged status)

/-- Before command `n`, the transaction begun by command `b` is open. -/
def TrackedSince (modern : Bool) (history : List CycleRecord) (b n : ℕ) : Prop :=
  SinceAt (Begins history) (Continues modern history) b n

def Tracked (modern : Bool) (history : List CycleRecord) (n : ℕ) : Prop :=
  Since (Begins history) (Continues modern history) n

def Eligible (modern : Bool) (history : List CycleRecord) (k : ℕ) (r : CycleRecord) : Prop :=
  kindAt history k = .commit ∧ Confirms r.taken ∧ Tracked modern history k

section History
variable (modern : Bool) (history later : List CycleRecord)

theorem kindAt_append (i : ℕ) (hi : i < history.length) :
    kindAt (history ++ later) i = kindAt history i := by
  simp only [kindAt, List.getElem?_append_left hi, List.take_append_of_le_length hi.le]

theorem begins_append (i : ℕ) (hi : i < history.length) :
    Begins (history ++ later) i ↔ Begins history i := by
  simp only [Begins, kindAt_append history later i hi, List.getElem?_append_left hi]

theorem continues_append (i : ℕ) (hi : i < history.length) :
    Continues modern (history ++ later) i ↔ Continues modern history i := by
  simp only [Continues, kindAt_append history later i hi, List.getElem?_append_left hi]

theorem tracked_append (n : ℕ) (hn : n ≤ history.length) :
    Tracked modern (history ++ later) n ↔ Tracked modern history n :=
  since_congr n (fun m hm => begins_append history later m (by omega))
    (fun m hm => continues_append modern history later m (by omega))

theorem kindAt_snoc (r : CycleRecord) :
    kindAt (history ++ [r]) history.length = statementKind history r.command := by
  simp [kindAt]

theorem begins_snoc (r : CycleRecord) : Begins (history ++ [r]) history.length ↔
    statementKind history r.command = .begin ∧ ∃ status, r.Acknowledged status ∧ inTrans status = true := by
  simp [Begins, kindAt_snoc]

theorem continues_snoc (r : CycleRecord) : Continues modern (history ++ [r]) history.length ↔
    NoError r.taken ∧ (∀ status, r.Status modern status → inTrans status = true) ∧
      ¬ (statementKind history r.command = .rollback ∧ ∃ status, r.Acknowledged status) ∧
      ¬ (r.command.code = 0x1f ∧ ∃ status, r.Acknowledged status) := by
  simp [Continues, kindAt_snoc]

theorem preparedText_snoc (r : CycleRecord) (id : ℕ) : preparedText (history ++ [r]) id =
    if r.preparedID = some id then some r.command.body.tail else preparedText history id := by
  simp only [preparedText, List.reverse_append, List.reverse_singleton, List.singleton_append,
    List.find?_cons]
  split_ifs <;> simp_all

end History

def Table (history : List CycleRecord) (statements : OrdMap ℕ Statement) : Prop :=
  ∀ id kind, statements.get? id = some kind →
    ∃ text, preparedText history id = some text ∧ classify text = kind

theorem admission_cases (statements : OrdMap ℕ Statement) (p : Packet) (kind : Statement)
    (h : admission statements p = .serve kind) :
    (p.code = 3 ∨ p.code = 0x16) ∧ kind = classify p.body.tail ∨
      p.code = 0x17 ∧ statements.get? (uint32At p.body 1) = some kind ∨
      p.code ≠ 3 ∧ p.code ≠ 0x16 ∧ p.code ≠ 0x17 ∧ kind = .ordinary := by
  unfold admission at h
  split_ifs at h with hseq hquit htext hunsupported hfull hexecute hparams hid hlen hother
  · simp only [Admission.serve.injEq] at h
    exact .inl ⟨htext, h.symm⟩
  · cases hs : statements.get? (uint32At p.body 1) with
    | none =>
      rw [hs] at h
      cases h
    | some k =>
      rw [hs] at h
      cases h
      exact .inr (.inl ⟨hexecute, rfl⟩)
  all_goals
    cases h
    rw [not_or] at htext
    exact .inr (.inr ⟨htext.1, htext.2, hexecute, rfl⟩)

theorem admission_kind (history : List CycleRecord) (statements : OrdMap ℕ Statement) (p : Packet)
    (kind : Statement) (htable : Table history statements)
    (h : admission statements p = .serve kind) (hp : p.code ≠ 0x16) : statementKind history p = kind := by
  unfold statementKind
  obtain ⟨hcode, rfl⟩ | ⟨hcode, hk⟩ | ⟨h3, -, h17, rfl⟩ := admission_cases statements p kind h
  · rw [if_pos (hcode.resolve_right hp)]
  · obtain ⟨text, htext, hclass⟩ := htable _ _ hk
    rw [if_neg (by rw [hcode]; decide), if_pos hcode, htext, Option.map_some, Option.getD_some, hclass]
  · rw [if_neg h3, if_neg h17]

theorem admission_prepare (statements : OrdMap ℕ Statement) (p : Packet) (kind : Statement)
    (h : admission statements p = .serve kind) (hp : p.code = 0x16) : kind = classify p.body.tail := by
  obtain ⟨-, hk⟩ | ⟨hcode, -⟩ | ⟨-, hne, -⟩ := admission_cases statements p kind h
  · exact hk
  · rw [hp] at hcode
    cases hcode
  · exact absurd hp hne

theorem okReply_cons (first : Packet) (rest : List Packet) (status : ℕ) (hseq : first.seq = 1)
    (hok : IsOK 0 first.body status) (status' : ℕ) :
    OKReply (first :: rest) status' ↔ status' = status := by
  constructor
  · intro h
    have h1 := (okReply_status h).2
    rw [okStatus_of_isOK 0 (.inl rfl) _ _ hok] at h1
    exact (Option.some.inj h1).symm
  · rintro rfl
    exact ⟨first, rest, rfl, hseq, hok⟩

theorem not_okReply (first : Packet) (rest : List Packet) (h : first.code ≠ 0) (status : ℕ) :
    ¬ OKReply (first :: rest) status := fun hh => h (okReply_status hh).1

theorem completed_tracked (modern : Bool) (history : List CycleRecord) (r : CycleRecord)
    (kind : Statement) (transaction transaction' : Bool) (statements statements' : OrdMap ℕ Statement)
    (hkind : r.command.code ≠ 0x16 → statementKind history r.command = kind)
    (h : Completed modern r.command kind transaction statements r.taken transaction' statements')
    (htracked : transaction = true ↔ Tracked modern history history.length) :
    transaction' = true ↔ Tracked modern (history ++ [r]) (history ++ [r]).length := by
  rw [List.length_append, List.length_singleton, Tracked, since_succ, ← Tracked,
    tracked_append modern history [r] _ le_rfl, ← htracked, begins_snoc, continues_snoc]
  generalize htaken : r.taken = taken at h
  cases h with
  | close hcommand =>
    have hno (status : ℕ) : ¬ OKReply [] status := by
      rintro ⟨_, _, h, _⟩
      cases h
    simp [CycleRecord.Acknowledged, CycleRecord.Status, htaken, hno, NoError]
  | error first hcommand hfirst =>
    have hno := not_okReply first [] (by rw [hfirst]; decide)
    simp [CycleRecord.Acknowledged, htaken, hno, NoError, hfirst]
  | prepare first rest hcommand hfirst hno =>
    have hne : NoError (first :: rest) := (noError_append [first] rest).mpr
      ⟨(noError_singleton first).mpr (by rw [hfirst]; decide), hno⟩
    simp [CycleRecord.Acknowledged, CycleRecord.Status, hcommand, htaken, hne]
  | ok first status hcommand hseq hok hmore =>
    have hreply := okReply_cons first [] status hseq hok
    have hcode : first.code = 0 := code_of_head hok.head
    have hne : NoError [first] := (noError_singleton first).mpr (by rw [hcode]; decide)
    have hack (status' : ℕ) : r.Acknowledged status' ↔ status' = status := by
      rw [CycleRecord.Acknowledged, htaken, hreply, and_iff_right hcommand.2]
    have hstatus (status' : ℕ) : r.Status modern status' ↔ status' = status := by
      rw [CycleRecord.Status, hack, htaken]
      simp
    have hreset (h : r.command.code = 0x1f) : kind = .ordinary := by
      rw [← hkind hcommand.2, statementKind, if_neg (by rw [h]; decide), if_neg (by rw [h]; decide)]
    rw [hkind hcommand.2]
    simp only [hack, hstatus, exists_eq_left, exists_eq, forall_eq, and_true, hne, true_and]
    unfold okTransaction
    by_cases h1f : r.command.code = 0x1f
    · simp [h1f, hreset h1f]
    · rw [if_neg h1f]
      cases kind <;> cases inTrans status <;> simp [h1f]
  | resultError first last l hcommand hfirst hlast =>
    have hno := not_okReply first (l ++ [last]) hfirst
    have hne : ¬ NoError (first :: (l ++ [last])) := fun hh =>
      hh last (by simp) hlast
    simp [CycleRecord.Acknowledged, htaken, hno, hne]
  | resultSet first last l status hcommand hfirst hno hlast heof =>
    have hreply := not_okReply first (l ++ [last]) hfirst.1
    have hne : NoError (first :: (l ++ [last])) := by
      rw [← List.singleton_append, noError_append, noError_append, noError_singleton, noError_singleton]
      exact ⟨hfirst.2, hno, hlast⟩
    have hack (status' : ℕ) : ¬ r.Acknowledged status' := by
      rw [CycleRecord.Acknowledged, htaken]
      exact fun hh => hreply status' hh.2
    have hstatus (status' : ℕ) : r.Status modern status' ↔ status' = status := by
      rw [CycleRecord.Status, or_iff_right (hack status'), htaken]
      constructor
      · rintro ⟨-, first', l', last', heq, -, heof'⟩
        obtain ⟨-, hll⟩ := List.cons.inj heq
        obtain ⟨-, hlast'⟩ := List.append_inj' hll rfl
        cases hlast'
        rw [← eofStatus_eq_some_iff] at heof heof'
        rw [heof] at heof'
        exact (Option.some.inj heof').symm
      · rintro rfl
        exact ⟨hcommand.2, first, l, last, rfl, hfirst.1, heof⟩
    simp [hack, hstatus, hne]

theorem completed_table (modern : Bool) (history : List CycleRecord) (r : CycleRecord)
    (kind : Statement) (transaction transaction' : Bool) (statements statements' : OrdMap ℕ Statement)
    (hkind : r.command.code = 0x16 → kind = classify r.command.body.tail) (herror : r.error = none)
    (h : Completed modern r.command kind transaction statements r.taken transaction' statements')
    (htable : Table history statements) : Table (history ++ [r]) statements' := by
  -- a command that prepares nothing can only remove statements
  have hsub (hid : r.preparedID = none) (m : OrdMap ℕ Statement)
      (hm : ∀ id kind, m.get? id = some kind → statements.get? id = some kind) :
      Table (history ++ [r]) m := by
    intro id k hk
    rw [preparedText_snoc, if_neg (by rw [hid]; simp)]
    exact htable id k (hm id k hk)
  generalize htaken : r.taken = taken at h
  cases h with
  | close hcommand =>
    refine hsub (by simp [CycleRecord.preparedID, htaken]) _ (fun id k hk => ?_)
    rw [OrdMap.get?_erase] at hk
    split_ifs at hk
    exact hk
  | error first hcommand hfirst =>
    exact hsub (by simp [CycleRecord.preparedID, htaken, hfirst]) _ (fun _ _ hk => hk)
  | prepare first rest hcommand hfirst hno =>
    intro id k hk
    have hid : r.preparedID = some (uint32At first.body 1) := by
      simp [CycleRecord.preparedID, htaken, hcommand, herror, hfirst]
    rw [preparedText_snoc, hid]
    rw [OrdMap.get?_insert] at hk
    by_cases heq : id = uint32At first.body 1
    · subst heq
      rw [if_pos rfl] at hk ⊢
      exact ⟨_, rfl, (hkind hcommand).symm.trans (Option.some.inj hk)⟩
    · rw [if_neg heq] at hk
      rw [if_neg (fun hh => heq (Option.some.inj hh).symm)]
      exact htable id k hk
  | ok first status hcommand hseq hok hmore =>
    refine hsub (by simp [CycleRecord.preparedID, htaken, hcommand.2]) _ (fun id k hk => ?_)
    split_ifs at hk
    · cases hk
    · exact hk
  | resultError first last l hcommand hfirst hlast =>
    exact hsub (by simp [CycleRecord.preparedID, htaken, hcommand.2]) _ (fun _ _ hk => hk)
  | resultSet first last l status hcommand hfirst hno hlast heof =>
    exact hsub (by simp [CycleRecord.preparedID, htaken, hcommand.2]) _ (fun _ _ hk => hk)

def DecidedRightly (modern : Bool) (history : List CycleRecord) (k : ℕ) (r : CycleRecord) : Prop :=
  (Eligible modern history k r → r.decisions.length = 1) ∧ (¬ Eligible modern history k r → r.decisions = [])

theorem decidedRightly_append (modern : Bool) (history later : List CycleRecord) (k : ℕ)
    (r : CycleRecord) (hk : k < history.length) :
    DecidedRightly modern (history ++ later) k r ↔ DecidedRightly modern history k r := by
  simp only [DecidedRightly, Eligible, kindAt_append history later k hk,
    tracked_append modern history later k hk.le]

structure Follows (modern : Bool) (history : List CycleRecord) (s : Session) : Prop where
  decided : ∀ k r, history[k]? = some r → DecidedRightly modern history k r
  transaction : s.closed = false → (s.transaction = true ↔ Tracked modern history history.length)
  table : s.closed = false → Table history s.statements

theorem follows_closed (modern : Bool) (history : List CycleRecord) (s t : Session)
    (h : Follows modern history s) (ht : t.closed = true) : Follows modern history t := by
  have hopen : t.closed ≠ false := by simp [ht]
  exact ⟨h.decided, fun hh => absurd hh hopen, fun hh => absurd hh hopen⟩

theorem follows_step (e : Endpoint) (history : List CycleRecord) (s : Session)
    (input : Packet × Surroundings) (h : Follows e.modern history s) :
    Follows e.modern (history ++ (exchangeStep e s input).1.toList) (exchangeStep e s input).2 := by
  obtain ⟨command, w⟩ := input
  unfold exchangeStep
  cases hopen : s.closed with
  | true => simpa using h
  | false =>
    simp only [Bool.false_eq_true, if_false]
    cases hadm : admission s.statements command with
    | quit => simpa using follows_closed _ _ s { s with closed := true } h rfl
    | refuse =>
      simpa using follows_closed _ _ s { s with
        closed := true
        cycle := { s.cycle with client := (s.cycle.client.write (rejection 1).bytes).2 } } h rfl
    | serve kind =>
      have htracked := h.transaction hopen
      have htable := h.table hopen
      simp only [Option.toList_some]
      set start := s.begin e w with hstart
      set run := serveCommand e w start.service.acquire command kind start with hrun
      set r : CycleRecord :=
        ⟨command, (finalState run).cycle.taken, (finalState run).decisions, stopError run⟩ with hr
      have hkind := admission_kind history s.statements command kind htable hadm
      refine ⟨fun k r' hk => ?_, fun hclosed => ?_, fun hclosed => ?_⟩
      · rcases lt_trichotomy k history.length with hlt | rfl | hgt
        · rw [List.getElem?_append_left hlt] at hk
          exact (decidedRightly_append _ _ _ _ _ hlt).mpr (h.decided k r' hk)
        · rw [List.getElem?_concat_length, Option.some.injEq] at hk
          subst hk
          have hd := serveCommand_decisions e w start.service.acquire command kind start rfl rfl rfl
          have heligible : Eligible e.modern (history ++ [r]) history.length r ↔
              command.code ≠ 0x16 ∧ kind = .commit ∧ start.transaction = true ∧
                Confirms (finalState run).cycle.taken := by
            unfold Eligible
            rw [kindAt_snoc, tracked_append _ _ _ _ le_rfl, ← htracked]
            by_cases hp : command.code = 0x16
            · have hord : statementKind history r.command = .ordinary := by
                rw [statementKind, if_neg (by rw [hp]; decide), if_neg (by rw [hp]; decide)]
              simp [hord, hp]
            · have hk' : statementKind history r.command = kind := hkind hp
              rw [hk']
              constructor
              · exact fun hh => ⟨hp, hh.1, hh.2.2, hh.2.1⟩
              · exact fun hh => ⟨hh.2.1, hh.2.2.2, hh.2.2.1⟩
          unfold DecidedRightly
          rw [heligible]
          exact hd
        · rw [List.getElem?_eq_none (by simp; omega)] at hk
          cases hk
      all_goals
        have hnone : stopError run = none := by simpa [Session.finish] using hclosed
        have hreturned : run = .ok () (finalState run) := by
          cases hcase : run with
          | ok a t => rfl
          | error err t =>
            rw [hcase] at hnone
            cases hnone
        have hdone := serveCommand_completed e w start.service.acquire command kind start
          (finalState run) rfl rfl hreturned
      · exact completed_tracked e.modern history r kind _ _ _ _ hkind hdone htracked
      · exact completed_table e.modern history r kind _ _ _ _
          (admission_prepare s.statements command kind hadm) hnone hdone htable

theorem follows_run (e : Endpoint) (service : Service) (client upstream : Sink) (back : List Packet)
    (inputs : List (Packet × Surroundings)) :
    Follows e.modern (exchange e (.start service client upstream back) inputs).1.reduceOption
      (exchange e (.start service client upstream back) inputs).2 := by
  set s := Session.start service client upstream back
  induction inputs using List.reverseRecOn with
  | nil =>
    refine ⟨?_, fun _ => ?_, fun _ => ?_⟩
    · intro k r hk
      cases hk
    · change false = true ↔ _
      simp only [Bool.false_eq_true, false_iff]
      exact not_since_zero
    · intro id kind hk
      cases hk
  | append_singleton inputs input ih =>
    have hstep := follows_step e _ _ input ih
    have hsnoc : exchange e s (inputs ++ [input]) =
        ((exchange e s inputs).1 ++ [(exchangeStep e (exchange e s inputs).2 input).1],
          (exchangeStep e (exchange e s inputs).2 input).2) := run_snoc _ _ _ _
    rw [hsnoc, List.reduceOption_append]
    cases ho : (exchangeStep e (exchange e s inputs).2 input).1 <;> simpa [ho] using hstep

theorem eligible_unique (modern : Bool) (history : List CycleRecord) (b k l : ℕ) (r : CycleRecord)
    (hk : history[k]? = some r) (hkl : k < l) (hne : r.command.code ≠ 0x16)
    (hbk : TrackedSince modern history b k) (hconfirms : Confirms r.taken) :
    ¬ TrackedSince modern history b l := by
  rintro ⟨-, -, hcont⟩
  obtain ⟨status, hok, -, htrans⟩ := hconfirms
  have hstatus := (hcont k hbk.1 hkl r hk).2.1 status (.inl ⟨hne, hok⟩)
  rw [htrans] at hstatus
  cases hstatus

structure CommitLaw (modern : Bool) (history : List CycleRecord) : Prop where
  /-- A command takes a decision exactly if it is an eligible commit. -/
  decided_iff : ∀ k r, history[k]? = some r → (r.decisions ≠ [] ↔ Eligible modern history k r)
  at_most_one : ∀ r ∈ history, r.decisions.length ≤ 1
  /-- Every decision belongs to an acknowledged begin, and to each belongs at most one. -/
  has_begin : ∀ k r, history[k]? = some r → r.decisions ≠ [] →
    ∃ b, TrackedSince modern history b k
  one_per_begin : ∀ b k l r r', history[k]? = some r → history[l]? = some r' → r.decisions ≠ [] →
    r'.decisions ≠ [] → TrackedSince modern history b k → TrackedSince modern history b l → k = l

end Faultline.MySQL
