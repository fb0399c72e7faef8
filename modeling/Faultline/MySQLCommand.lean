import Faultline.MySQLFormat
import Faultline.MySQLSession

/-! What one command can do to a MySQL session: the packets it takes, the decisions it
makes and, when it completes, what becomes of the transaction and the statements. -/
namespace Faultline.MySQL

theorem accept_apply (p : Packet) (back : List Packet) (x : Cycle) :
    accept p back x = if p.seq = x.seq
      then .ok () { x with back := back, taken := x.taken ++ [p], seq := x.seq + 1 }
      else .error .protocol { x with back := back, taken := x.taken ++ [p] } := by
  by_cases h : p.seq = x.seq <;> simp [accept, bind_apply, h]

theorem read_apply (x : Cycle) : read x = match x.back with
    | [] => .error .cancelled x
    | p :: back => if p.seq = x.seq
        then .ok p { x with back := back, taken := x.taken ++ [p], seq := x.seq + 1 }
        else .error .protocol { x with back := back, taken := x.taken ++ [p] } := by
  obtain ⟨back, client, seq, taken⟩ := x
  cases back with
  | nil => rfl
  | cons p back =>
    simp only [read, bind_apply, get_apply, accept_apply]
    split_ifs <;> rfl

theorem forward_apply (p : Packet) (x : Cycle) : forward p x =
    if (x.client.write p.bytes).1 then .ok () { x with client := (x.client.write p.bytes).2 }
    else .error .write { x with client := (x.client.write p.bytes).2 } := by
  by_cases h : (x.client.write p.bytes).1 = true <;> simp [forward, bind_apply, h]

theorem read_returned {x t : Cycle} {p : Packet} (h : read x = .ok p t) :
    p.seq = x.seq ∧ t.taken = x.taken ++ [p] := by
  rw [read_apply] at h
  split at h
  · cases h
  · split_ifs at h with hseq
    cases h
    exact ⟨hseq, rfl⟩

theorem forward_taken (p : Packet) (x : Cycle) : (finalState (forward p x)).taken = x.taken := by
  rw [forward_apply]
  split_ifs <;> rfl

theorem forward_returned {x t : Cycle} {p : Packet} (h : forward p x = .ok () t) :
    t.taken = x.taken := by
  have ht := forward_taken p x
  rwa [h] at ht

def TakesMore (x y : Cycle) : Prop := x.taken <+: y.taken

instance : Std.Refl TakesMore := ⟨fun x => List.prefix_refl x.taken⟩

instance : IsTrans Cycle TakesMore := ⟨fun _ _ _ => List.IsPrefix.trans⟩

theorem accept_keeps (p : Packet) (back : List Packet) : Keeps TakesMore (accept p back) := by
  intro x
  rw [accept_apply]
  split_ifs <;> exact List.prefix_append _ _

theorem read_keeps : Keeps TakesMore read := by
  intro x
  rw [read_apply]
  split
  · exact refl x
  · split_ifs <;> exact List.prefix_append _ _

theorem forward_keeps (p : Packet) : Keeps TakesMore (forward p) := by
  intro x
  unfold TakesMore
  rw [forward_taken]

theorem definitionPackets_keeps (n : ℕ) : Keeps TakesMore (definitionPackets n) := by
  induction n with
  | zero => exact .pure ()
  | succ n ih =>
    refine read_keeps.bind (fun p => Keeps.ite (.throw _) ?_)
    exact (forward_keeps p).bind (fun _ => ih)

theorem definitions_keeps (modern : Bool) (n : ℕ) : Keeps TakesMore (definitions modern n) := by
  refine Keeps.ite (.throw _) ((definitionPackets_keeps n).bind (fun _ => Keeps.ite ?_ (.pure _)))
  exact read_keeps.bind (fun p => Keeps.ite (.throw _) (forward_keeps p))

theorem rows_keeps (modern : Bool) (back : List Packet) : Keeps TakesMore (rows modern back) := by
  induction back with
  | nil => exact .throw _
  | cons p back ih =>
    refine (accept_keeps p back).bind (fun _ => Keeps.ite ?_ ?_)
    · exact (forward_keeps p).captureError.bind (fun _ => .pure _)
    · cases eofStatus p.body modern with
      | some flags =>
        exact Keeps.ite (.throw _) ((forward_keeps p).captureError.bind (fun _ => .pure _))
      | none => exact (forward_keeps p).bind (fun _ => ih)

theorem result_keeps (modern : Bool) (first : Packet) : Keeps TakesMore (result modern first) := by
  unfold result
  cases lenenc first.body with
  | none => exact .throw _
  | some n =>
    refine Keeps.ite (.throw _) ((forward_keeps first).bind (fun _ => ?_))
    exact (definitions_keeps modern n.1).bind (fun _ => Keeps.get.bind (fun x => rows_keeps modern x.back))

def NoError (l : List Packet) : Prop := ∀ p ∈ l, p.code ≠ 0xff

theorem noError_append (l l' : List Packet) : NoError (l ++ l') ↔ NoError l ∧ NoError l' := by
  simp only [NoError, List.mem_append, or_imp, forall_and]

theorem noError_singleton (p : Packet) : NoError [p] ↔ p.code ≠ 0xff := by
  simp [NoError]

theorem definitionPackets_returned (n : ℕ) {x t : Cycle} (h : definitionPackets n x = .ok () t) :
    ∃ l, t.taken = x.taken ++ l ∧ NoError l := by
  induction n generalizing x with
  | zero =>
    cases h
    exact ⟨[], (List.append_nil _).symm, by simp [NoError]⟩
  | succ n ih =>
    rw [definitionPackets, bind_eq_returned] at h
    obtain ⟨p, y, hread, h⟩ := h
    split_ifs at h with hcode
    · cases h
    rw [bind_eq_returned] at h
    obtain ⟨⟨⟩, z, hforward, h⟩ := h
    obtain ⟨l, hl, hno⟩ := ih h
    rw [forward_returned hforward, (read_returned hread).2, List.append_assoc] at hl
    exact ⟨[p] ++ l, hl, (noError_append _ _).mpr ⟨(noError_singleton p).mpr hcode, hno⟩⟩

theorem code_of_eofStatus {p : Packet} {modern : Bool} {status : ℕ}
    (h : eofStatus p.body modern = some status) : p.code ≠ 0xff := by
  have hhead : p.body.head? = some 0xfe := by
    unfold eofStatus at h
    split_ifs at h with h1
    all_goals exact not_not.mp h1
  rw [List.head?_eq_some_head p.nonempty, Option.some.injEq] at hhead
  rw [Packet.code, hhead]
  decide

theorem definitions_returned (modern : Bool) (n : ℕ) {x t : Cycle}
    (h : definitions modern n x = .ok () t) : ∃ l, t.taken = x.taken ++ l ∧ NoError l := by
  by_cases hmax : 4096 < n
  · simp [definitions, hmax, bind_apply] at h
  simp only [definitions, if_neg hmax] at h
  rw [bind_eq_returned] at h
  obtain ⟨⟨⟩, y, hpackets, h⟩ := h
  obtain ⟨l, hl, hno⟩ := definitionPackets_returned n hpackets
  split_ifs at h with heof
  · rw [bind_eq_returned] at h
    obtain ⟨p, z, hread, h⟩ := h
    cases hstatus : eofStatus p.body false with
    | none => simp [hstatus, bind_apply] at h
    | some status =>
      simp only [hstatus, reduceCtorEq, if_false] at h
      refine ⟨l ++ [p], ?_, (noError_append _ _).mpr ⟨hno, ?_⟩⟩
      · rw [forward_returned h, (read_returned hread).2, hl, List.append_assoc]
      · exact (noError_singleton p).mpr (code_of_eofStatus hstatus)
  · cases h
    exact ⟨l, hl, hno⟩

/-- The packet that ends the rows: an error, or one with the status that is returned. -/
def EndsRows (modern : Bool) (p : Packet) (status : ℕ) (ok : Bool) : Prop :=
  if ok then p.code ≠ 0xff ∧ eofStatus p.body modern = some status else p.code = 0xff

theorem captureError_taken {p : Packet} {x t : Cycle} {r : Except SessionError Unit}
    (h : captureError (forward p) x = .ok r t) : t.taken = x.taken := by
  have hf := forward_taken p x
  unfold captureError at h
  split at h
  · cases h
    rwa [‹forward p x = _›] at hf
  · cases h
    rwa [‹forward p x = _›] at hf

theorem rows_returned (modern : Bool) (back : List Packet) {x t : Cycle} {status : ℕ} {ok : Bool}
    {err : Except SessionError Unit} (h : rows modern back x = .ok (status, ok, err) t) :
    ∃ l last, t.taken = x.taken ++ (l ++ [last]) ∧ NoError l ∧ EndsRows modern last status ok := by
  induction back generalizing x with
  | nil => cases h
  | cons p back ih =>
    rw [rows, bind_eq_returned] at h
    obtain ⟨⟨⟩, y, haccept, h⟩ := h
    have hy : y.taken = x.taken ++ [p] := by
      rw [accept_apply] at haccept
      split_ifs at haccept
      cases haccept
      rfl
    -- the packet ends the rows and is the last one taken
    have hlast (s : ℕ) (b : Bool) (hend : EndsRows modern p s b)
        (h : (do return (s, b, ← captureError (forward p)) : EStateM SessionError Cycle _) y =
          .ok (status, ok, err) t) :
        ∃ l last, t.taken = x.taken ++ (l ++ [last]) ∧ NoError l ∧ EndsRows modern last status ok := by
      rw [bind_eq_returned] at h
      obtain ⟨r, z, hforward, h⟩ := h
      cases h
      exact ⟨[], p, by rw [captureError_taken hforward, hy, List.nil_append], by simp [NoError], hend⟩
    split_ifs at h with hcode
    · exact hlast 0 false hcode h
    cases hstatus : eofStatus p.body modern with
    | some flags =>
      rw [hstatus] at h
      simp only at h
      split_ifs at h with hmore
      · cases h
      · exact hlast flags true ⟨hcode, hstatus⟩ h
    | none =>
      rw [hstatus] at h
      simp only at h
      rw [bind_eq_returned] at h
      obtain ⟨⟨⟩, z, hforward, h⟩ := h
      obtain ⟨l, last, hl, hno, hend⟩ := ih h
      refine ⟨p :: l, last, ?_, ?_, hend⟩
      · rw [hl, forward_returned hforward, hy, List.append_assoc]
        rfl
      · exact (noError_append [p] l).mpr ⟨(noError_singleton p).mpr hcode, hno⟩

theorem result_returned (modern : Bool) (first : Packet) {x t : Cycle} {status : ℕ} {ok : Bool}
    {err : Except SessionError Unit} (h : result modern first x = .ok (status, ok, err) t) :
    ∃ l last, t.taken = x.taken ++ (l ++ [last]) ∧ NoError l ∧ EndsRows modern last status ok := by
  unfold result at h
  cases hn : lenenc first.body with
  | none =>
    rw [hn] at h
    cases h
  | some n =>
    rw [hn] at h
    simp only at h
    split_ifs at h with hcount
    · cases h
    rw [bind_eq_returned] at h
    obtain ⟨⟨⟩, y, hforward, h⟩ := h
    rw [bind_eq_returned] at h
    obtain ⟨⟨⟩, z, hdefinitions, h⟩ := h
    rw [bind_eq_returned] at h
    obtain ⟨w, z', hget, h⟩ := h
    cases hget
    obtain ⟨l, hl, hno⟩ := definitions_returned modern n.1 hdefinitions
    obtain ⟨l', last, hl', hno', hend⟩ := rows_returned modern _ h
    refine ⟨l ++ l', last, ?_, (noError_append _ _).mpr ⟨hno, hno'⟩, hend⟩
    rw [hl', hl, forward_returned hforward]
    simp only [List.append_assoc]

theorem onCycle_returned {α : Type} {m : EStateM SessionError Cycle α} {s t : Session} {a : α}
    (h : onCycle m s = .ok a t) : ∃ x, m s.cycle = .ok a x ∧ t = { s with cycle := x } := by
  unfold onCycle zoom at h
  split at h
  · cases h
    exact ⟨_, ‹_›, rfl⟩
  · cases h

theorem finalState_onCycle {α : Type} (m : EStateM SessionError Cycle α) (s : Session) :
    finalState (onCycle m s) = { s with cycle := finalState (m s.cycle) } := by
  unfold onCycle zoom
  cases m s.cycle <;> rfl

/-- What `exchange` makes of the tracked transaction when an OK packet arrives. -/
def okTransaction (command : Packet) (kind : Statement) (transaction : Bool) (status : ℕ) : Bool :=
  if command.code = 0x1f then false
  else if kind = .begin then inTrans status
  else if ¬ inTrans status ∨ kind = .rollback then false
  else transaction

/-- Everything that a command which completes can do: the packets it takes and the
transaction and statements it leaves. -/
inductive Completed (modern : Bool) (command : Packet) (kind : Statement) (transaction : Bool)
    (statements : OrdMap ℕ Statement) : List Packet → Bool → OrdMap ℕ Statement → Prop where
  | close (hcommand : command.code = 0x19) : Completed modern command kind transaction statements []
      transaction (statements.erase (uint32At command.body 1))
  | error (first : Packet) (hcommand : command.code ≠ 0x19) (hfirst : first.code = 0xff) :
      Completed modern command kind transaction statements [first] false statements
  | prepare (first : Packet) (rest : List Packet) (hcommand : command.code = 0x16)
      (hfirst : first.code = 0) (hno : NoError rest) :
      Completed modern command kind transaction statements (first :: rest) transaction
        (statements.insert (uint32At first.body 1) kind)
  | ok (first : Packet) (status : ℕ) (hcommand : command.code ≠ 0x19 ∧ command.code ≠ 0x16)
      (hseq : first.seq = 1) (hok : IsOK 0 first.body status) (hmore : moreResults status = false) :
      Completed modern command kind transaction statements [first]
        (okTransaction command kind transaction status)
        (if command.code = 0x1f then ∅ else statements)
  | resultError (first last : Packet) (l : List Packet)
      (hcommand : command.code ≠ 0x19 ∧ command.code ≠ 0x16) (hfirst : first.code ≠ 0)
      (hlast : last.code = 0xff) :
      Completed modern command kind transaction statements (first :: (l ++ [last])) false statements
  | resultSet (first last : Packet) (l : List Packet) (status : ℕ)
      (hcommand : command.code ≠ 0x19 ∧ command.code ≠ 0x16)
      (hfirst : first.code ≠ 0 ∧ first.code ≠ 0xff) (hno : NoError l) (hlast : last.code ≠ 0xff)
      (heof : IsEOF modern last.body status) :
      Completed modern command kind transaction statements (first :: (l ++ [last]))
        (transaction && inTrans status) statements

def Session.acknowledge (s : Session) (command : Packet) (kind : Statement) (status : ℕ) : Session :=
  { s with
    transaction := okTransaction command kind s.transaction status
    statements := if command.code = 0x1f then ∅ else s.statements }

theorem acknowledged_apply (e : Endpoint) (w : Surroundings) (snap : Snapshot) (command first : Packet)
    (kind : Statement) (s : Session) (status : ℕ) (hstatus : okStatus first.body = some status)
    (hmore : moreResults status = false) :
    acknowledged e w snap command kind first s =
      (if kind = .commit ∧ s.transaction ∧ ¬ inTrans status then do
          unless ← commit e w snap do
            modify (fun s => { s with outcome := "commit_ack_lost" })
            throw .protocol
          onCycle (forward first)
        else onCycle (forward first)) (s.acknowledge command kind status) := by
  unfold acknowledged
  rw [hstatus]
  simp only [hmore, Bool.false_eq_true, if_false]
  by_cases h1 : ¬ inTrans status = true ∨ kind = .rollback <;> by_cases h2 : kind = .begin <;>
    by_cases h3 : command.code = 0x1f <;>
      simp only [h1, h2, h3, if_true, if_false, bind_apply, get_apply, setTransaction, modify_apply,
        Session.acknowledge, okTransaction, reduceCtorEq, false_and] <;> split_ifs <;> rfl

/-- The result of `Decide` and the service after it. -/
def decideResult (e : Endpoint) (w : Surroundings) (snap : Snapshot) (s : Session) :
    Except String Decision × Service :=
  (runService e.lib e.managed s.service w.during).2.decide e.lib snap e.proxyID ⟨[], [], [], []⟩

theorem decide_apply (e : Endpoint) (w : Surroundings) (snap : Snapshot) (s : Session) :
    decide e w snap s = .ok (decisionOf (decideResult e w snap s).1) { s with
      service := (decideResult e w snap s).2
      decisions := s.decisions ++ [decisionOf (decideResult e w snap s).1] } := rfl

/-- A decision is one call of `Decide` and leaves the rest of the session alone. -/
structure DecidesOnce (s t : Session) : Prop where
  cycle : t.cycle = s.cycle
  transaction : t.transaction = s.transaction
  statements : t.statements = s.statements
  decisions : t.decisions.length = s.decisions.length + 1

theorem commit_decidesOnce (e : Endpoint) (w : Surroundings) (snap : Snapshot) (s : Session) :
    DecidesOnce s (finalState (commit e w snap s)) := by
  rw [commit, bind_ok (decide_apply e w snap s)]
  generalize decideResult e w snap s = r
  simp only [setEvent, record, bind_apply, get_apply, modify_apply]
  split_ifs
  · exact ⟨rfl, rfl, rfl, List.length_append⟩
  · cases applyFault w.elapsed (decisionOf r.1).fault <;> exact ⟨rfl, rfl, rfl, List.length_append⟩

/-- The session after an OK packet: the decision, if the commit is confirmed, and the
forwarded packet change neither the transaction nor the statements. -/
theorem acknowledged_final (e : Endpoint) (w : Surroundings) (snap : Snapshot) (command first : Packet)
    (kind : Statement) (s : Session) (status : ℕ) (hstatus : okStatus first.body = some status)
    (hmore : moreResults status = false) :
    let t := finalState (acknowledged e w snap command kind first s)
    t.cycle.taken = s.cycle.taken ∧ t.transaction = okTransaction command kind s.transaction status ∧
      t.statements = (if command.code = 0x1f then ∅ else s.statements) ∧
      t.decisions.length = s.decisions.length +
        (if kind = .commit ∧ s.transaction ∧ ¬ inTrans status then 1 else 0) := by
  rw [acknowledged_apply e w snap command first kind s status hstatus hmore]
  by_cases hconfirmed : kind = .commit ∧ s.transaction = true ∧ ¬ inTrans status = true
  · rw [if_pos hconfirmed, if_pos hconfirmed, bind_apply]
    have hd := commit_decidesOnce e w snap (s.acknowledge command kind status)
    cases hc : commit e w snap (s.acknowledge command kind status) with
    | error err t =>
      rw [hc] at hd
      exact ⟨congrArg _ hd.cycle, hd.transaction, hd.statements, hd.decisions⟩
    | ok forwarded t =>
      rw [hc] at hd
      cases forwarded with
      | false => exact ⟨congrArg _ hd.cycle, hd.transaction, hd.statements, hd.decisions⟩
      | true =>
        simp only [if_true, finalState_onCycle, forward_taken]
        exact ⟨congrArg _ hd.cycle, hd.transaction, hd.statements, hd.decisions⟩
  · rw [if_neg hconfirmed, if_neg hconfirmed, finalState_onCycle]
    exact ⟨forward_taken first _, rfl, rfl, rfl⟩

theorem code_of_head {p : Packet} {b : UInt8} (h : p.body.head? = some b) : p.code = b := by
  rw [List.head?_eq_some_head p.nonempty, Option.some.injEq] at h
  exact h

theorem head_of_code (p : Packet) : p.body.head? = some p.code := List.head?_eq_some_head p.nonempty

theorem acknowledged_returned (e : Endpoint) (w : Surroundings) (snap : Snapshot)
    (command first : Packet) (kind : Statement) (hcode : first.code = 0) {s t : Session}
    (h : acknowledged e w snap command kind first s = .ok () t) :
    ∃ status, IsOK 0 first.body status ∧ moreResults status = false ∧
      t.cycle.taken = s.cycle.taken ∧ t.transaction = okTransaction command kind s.transaction status ∧
      t.statements = if command.code = 0x1f then ∅ else s.statements := by
  cases hstatus : okStatus first.body with
  | none => simp [acknowledged, hstatus] at h
  | some status =>
    cases hmore : moreResults status with
    | true => simp [acknowledged, hstatus, hmore, bind_apply] at h
    | false =>
      have hfinal := acknowledged_final e w snap command first kind s status hstatus hmore
      rw [h] at hfinal
      have hhead : first.body.head? = some 0 := by rw [head_of_code, hcode]
      exact ⟨status, (okStatus_eq_some_iff_of_head _ 0 status hhead (.inl rfl)).mp hstatus, hmore,
        hfinal.1, hfinal.2.1, hfinal.2.2.1⟩

theorem prepared_returned (modern : Bool) (kind : Statement) (first : Packet) {s t : Session}
    (h : prepared modern kind first s = .ok () t) :
    first.code = 0 ∧ (∃ l, t.cycle.taken = s.cycle.taken ++ l ∧ NoError l) ∧
      t.transaction = s.transaction ∧
      t.statements = s.statements.insert (uint32At first.body 1) kind := by
  by_cases hbad : first.body.length ≠ 12 ∨ first.code ≠ 0
  · simp [prepared, hbad, bind_apply] at h
  by_cases hknown : (s.statements.get? (uint32At first.body 1)).isSome = true
  · simp [prepared, hbad, bind_apply, hknown] at h
  simp only [prepared, hbad, if_false] at h
  rw [bind_ok (get_apply s)] at h
  simp only [hknown, Bool.false_eq_true, if_false] at h
  rw [not_or, not_not, not_not] at hbad
  rw [bind_eq_returned] at h
  obtain ⟨⟨⟩, s1, h1, h⟩ := h
  obtain ⟨x1, hforward, rfl⟩ := onCycle_returned h1
  rw [bind_eq_returned] at h
  obtain ⟨⟨⟩, s2, h2, h⟩ := h
  obtain ⟨x2, hparams, rfl⟩ := onCycle_returned h2
  rw [bind_eq_returned] at h
  obtain ⟨⟨⟩, s3, h3, h⟩ := h
  obtain ⟨x3, hcolumns, rfl⟩ := onCycle_returned h3
  cases h
  obtain ⟨l, hl, hno⟩ := definitions_returned modern _ hparams
  obtain ⟨l', hl', hno'⟩ := definitions_returned modern _ hcolumns
  refine ⟨hbad.2, ⟨l ++ l', ?_, (noError_append _ _).mpr ⟨hno, hno'⟩⟩, rfl, rfl⟩
  change x3.taken = s.cycle.taken ++ (l ++ l')
  rw [hl', hl, forward_returned hforward, List.append_assoc]

theorem resultSet_returned (modern : Bool) (first : Packet) {s t : Session}
    (h : resultSet modern first s = .ok () t) : ∃ l last status ok,
      t.cycle.taken = s.cycle.taken ++ (l ++ [last]) ∧ NoError l ∧ EndsRows modern last status ok ∧
        t.transaction = (s.transaction && (ok && inTrans status)) ∧ t.statements = s.statements := by
  rw [resultSet, bind_eq_returned] at h
  obtain ⟨r, s1, hcapture, h⟩ := h
  unfold captureError at hcapture
  split at hcapture
  · rename_i out s2 hresult
    cases hcapture
    obtain ⟨x, hx, rfl⟩ := onCycle_returned hresult
    obtain ⟨status, ok, err⟩ := out
    obtain ⟨l, last, hl, hno, hend⟩ := result_returned modern first hx
    refine ⟨l, last, status, ok, ?_⟩
    cases err with
    | error e =>
      simp only at h
      split_ifs at h
      · cases h
      · cases h
    | ok _ =>
      simp only at h
      split_ifs at h with hlost
      · cases h
        refine ⟨hl, hno, hend, ?_, rfl⟩
        cases ok <;> simp_all
      · cases h
        refine ⟨hl, hno, hend, ?_, rfl⟩
        cases ok <;> simp_all
  · cases hcapture
    simp [bind_apply, setTransaction] at h

theorem writeUpstream_apply (p : Packet) (s : Session) : writeUpstream p s =
    if (s.upstream.write p.bytes).1 then .ok () { s with upstream := (s.upstream.write p.bytes).2 }
    else .error .write { s with upstream := (s.upstream.write p.bytes).2 } := by
  by_cases h : (s.upstream.write p.bytes).1 = true <;> simp [writeUpstream, bind_apply, h]

theorem serveCommand_completed (e : Endpoint) (w : Surroundings) (snap : Snapshot) (command : Packet)
    (kind : Statement) (s t : Session) (htaken : s.cycle.taken = []) (hseq : s.cycle.seq = 1)
    (h : serveCommand e w snap command kind s = .ok () t) :
    Completed e.modern command kind s.transaction s.statements t.cycle.taken t.transaction
      t.statements := by
  rw [serveCommand, bind_eq_returned] at h
  obtain ⟨⟨⟩, s1, hwrite, h⟩ := h
  rw [writeUpstream_apply] at hwrite
  split_ifs at hwrite
  cases hwrite
  by_cases hclose : command.code = 0x19
  · rw [if_pos hclose] at h
    cases h
    simp only [htaken]
    exact .close hclose
  rw [if_neg hclose, bind_eq_returned] at h
  obtain ⟨first, s2, hread, h⟩ := h
  obtain ⟨x, hx, rfl⟩ := onCycle_returned hread
  obtain ⟨hfirstseq, hfirst⟩ := read_returned hx
  rw [htaken, List.nil_append] at hfirst
  rw [hseq] at hfirstseq
  unfold respond at h
  split_ifs at h with herr hprepare hinfile hzero
  · rw [bind_ok (modify_apply _ _)] at h
    obtain ⟨y, hy, rfl⟩ := onCycle_returned h
    have htaken' : y.taken = [first] := (forward_returned hy).trans hfirst
    simp only [htaken']
    exact .error first hclose herr
  · obtain ⟨hcode, ⟨l, hl, hno⟩, htrans, hstmts⟩ := prepared_returned e.modern kind first h
    rw [hl, htrans, hstmts, hfirst]
    exact .prepare first l hprepare hcode hno
  · cases h
  · obtain ⟨status, hok, hmore, hl, htrans, hstmts⟩ :=
      acknowledged_returned e w snap command first kind hzero h
    rw [hl, htrans, hstmts, hfirst]
    exact .ok first status ⟨hclose, hprepare⟩ hfirstseq hok hmore
  · obtain ⟨l, last, status, ok, hl, hno, hend, htrans, hstmts⟩ := resultSet_returned e.modern first h
    rw [hl, htrans, hstmts, hfirst]
    cases ok with
    | false =>
      rw [Bool.false_and, Bool.and_false]
      exact .resultError first last l ⟨hclose, hprepare⟩ hzero hend
    | true =>
      rw [Bool.true_and]
      exact .resultSet first last l status ⟨hclose, hprepare⟩ ⟨hzero, herr⟩ hno hend.1
        ((eofStatus_eq_some_iff _ _ _).mp hend.2)

def Undecided (s t : Session) : Prop := t.decisions = s.decisions ∧ s.cycle.taken <+: t.cycle.taken

instance : Std.Refl Undecided := ⟨fun _ => ⟨rfl, List.prefix_refl _⟩⟩

instance : IsTrans Session Undecided :=
  ⟨fun _ _ _ h h' => ⟨h'.1.trans h.1, h.2.trans h'.2⟩⟩

theorem onCycle_undecided {α : Type} {m : EStateM SessionError Cycle α} (h : Keeps TakesMore m) :
    Keeps Undecided (onCycle m) := by
  intro s
  rw [finalState_onCycle]
  exact ⟨rfl, h s.cycle⟩

theorem prepared_undecided (modern : Bool) (kind : Statement) (first : Packet) :
    Keeps Undecided (prepared modern kind first) := by
  refine Keeps.ite (.throw _) (Keeps.get.bind (fun _ => Keeps.ite (.throw _) ?_))
  refine (onCycle_undecided (forward_keeps first)).bind (fun _ => ?_)
  refine (onCycle_undecided (definitions_keeps modern _)).bind (fun _ => ?_)
  refine (onCycle_undecided (definitions_keeps modern _)).bind (fun _ => ?_)
  exact .modify (fun _ => ⟨rfl, List.prefix_refl _⟩)

theorem resultSet_undecided (modern : Bool) (first : Packet) :
    Keeps Undecided (resultSet modern first) := by
  have hset : Keeps Undecided (setTransaction false) := .modify (fun _ => ⟨rfl, List.prefix_refl _⟩)
  refine (onCycle_undecided (result_keeps modern first)).captureError.bind (fun r => ?_)
  cases r with
  | error e => exact hset.bind (fun _ => .throw e)
  | ok out =>
    obtain ⟨status, ok, err⟩ := out
    refine Keeps.ite (hset.bind (fun _ => ?_)) ?_
    all_goals
      cases err with
      | error e => exact .throw e
      | ok _ => exact .pure ()

/-- The first packet of a response, if it has the right sequence number and is an OK
packet, carries this status. -/
def OKReply (taken : List Packet) (status : ℕ) : Prop :=
  ∃ first rest, taken = first :: rest ∧ first.seq = 1 ∧ IsOK 0 first.body status

theorem okReply_status {first : Packet} {rest : List Packet} {status : ℕ}
    (h : OKReply (first :: rest) status) : first.code = 0 ∧ okStatus first.body = some status := by
  obtain ⟨p, l, hp, -, hok⟩ := h
  cases hp
  exact ⟨code_of_head hok.head, okStatus_of_isOK 0 (.inl rfl) _ _ hok⟩

def Confirms (taken : List Packet) : Prop :=
  ∃ status, OKReply taken status ∧ moreResults status = false ∧ inTrans status = false

/-- The decisions of a command in the state `t` where it stops. -/
def DecidesRightly (command : Packet) (kind : Statement) (transaction : Bool) (t : Session) : Prop :=
  (command.code ≠ 0x16 ∧ kind = .commit ∧ transaction = true ∧ Confirms t.cycle.taken →
    t.decisions.length = 1) ∧
  (¬ (command.code ≠ 0x16 ∧ kind = .commit ∧ transaction = true ∧ Confirms t.cycle.taken) →
    t.decisions = [])

theorem decidesRightly_of_not_confirms (command : Packet) (kind : Statement) (transaction : Bool)
    (t : Session) (ht : t.decisions = []) (hno : ¬ Confirms t.cycle.taken) :
    DecidesRightly command kind transaction t :=
  ⟨fun h => absurd h.2.2.2 hno, fun _ => ht⟩

theorem confirms_cons {first : Packet} {rest : List Packet} (h : Confirms (first :: rest)) :
    first.seq = 1 ∧ first.code = 0 ∧ ∃ status, okStatus first.body = some status ∧
      moreResults status = false ∧ inTrans status = false := by
  obtain ⟨status, hok, hmore, htrans⟩ := h
  obtain ⟨hcode, hstatus⟩ := okReply_status hok
  obtain ⟨p, l, hp, hseq, -⟩ := hok
  cases hp
  exact ⟨hseq, hcode, status, hstatus, hmore, htrans⟩

theorem not_confirms_nil : ¬ Confirms [] := by
  rintro ⟨_, ⟨_, _, h, _⟩, _⟩
  cases h

theorem acknowledged_decisions (e : Endpoint) (w : Surroundings) (snap : Snapshot)
    (command first : Packet) (kind : Statement) (s : Session) (htaken : s.cycle.taken = [first])
    (hcode : first.code = 0) (hseq : first.seq = 1) (hcommand : command.code ≠ 0x16)
    (hdecisions : s.decisions = []) : DecidesRightly command kind s.transaction
      (finalState (acknowledged e w snap command kind first s)) := by
  cases hstatus : okStatus first.body with
  | none =>
    have ht : acknowledged e w snap command kind first s = .error .protocol s := by
      simp [acknowledged, hstatus]
    rw [ht]
    refine decidesRightly_of_not_confirms _ _ _ _ hdecisions (fun h => ?_)
    rw [finalState_error, htaken] at h
    obtain ⟨-, -, status, hs, -⟩ := confirms_cons h
    rw [hstatus] at hs
    cases hs
  | some status =>
    cases hmore : moreResults status with
    | true =>
      have ht : acknowledged e w snap command kind first s = .error .protocol s := by
        simp [acknowledged, hstatus, hmore, bind_apply]
      rw [ht]
      refine decidesRightly_of_not_confirms _ _ _ _ hdecisions (fun h => ?_)
      rw [finalState_error, htaken] at h
      obtain ⟨-, -, status', hs, hm, -⟩ := confirms_cons h
      rw [hstatus] at hs
      cases hs
      rw [hmore] at hm
      cases hm
    | false =>
      obtain ⟨ht, -, -, hlen⟩ := acknowledged_final e w snap command first kind s status hstatus hmore
      have hhead : first.body.head? = some 0 := by rw [head_of_code, hcode]
      have hok := (okStatus_eq_some_iff_of_head _ 0 status hhead (.inl rfl)).mp hstatus
      have hconfirms : Confirms (finalState (acknowledged e w snap command kind first s)).cycle.taken ↔
          inTrans status = false := by
        rw [ht, htaken]
        constructor
        · intro h
          obtain ⟨-, -, status', hs, -, htrans⟩ := confirms_cons h
          rw [hstatus] at hs
          cases hs
          exact htrans
        · exact fun htrans => ⟨status, ⟨first, [], rfl, hseq, hok⟩, hmore, htrans⟩
      rw [hdecisions, List.length_nil, Nat.zero_add] at hlen
      unfold DecidesRightly
      rw [hconfirms]
      refine ⟨fun h => ?_, fun h => ?_⟩
      · rw [hlen, if_pos ⟨h.2.1, h.2.2.1, by simp [h.2.2.2]⟩]
      · rw [if_neg (fun hh => h ⟨hcommand, hh.1, hh.2.1, by simpa using hh.2.2⟩)] at hlen
        exact List.length_eq_zero_iff.mp hlen

theorem respond_decisions (e : Endpoint) (w : Surroundings) (snap : Snapshot)
    (command first : Packet) (kind : Statement) (s : Session) (htaken : s.cycle.taken = [first])
    (hseq : first.seq = 1) (hdecisions : s.decisions = []) :
    DecidesRightly command kind s.transaction
      (finalState (respond e w snap command kind first s)) := by
  -- a response without a decision that does not start with an OK packet
  have hquiet (m : EStateM SessionError Session Unit) (hm : Keeps Undecided m) (t : Session)
      (ht : t.decisions = [] ∧ t.cycle = s.cycle) (hcode : first.code ≠ 0) :
      DecidesRightly command kind s.transaction (finalState (m t)) := by
    obtain ⟨hd, rest, hrest⟩ := hm t
    refine decidesRightly_of_not_confirms _ _ _ _ (hd.trans ht.1) (fun h => ?_)
    rw [← hrest, ht.2, htaken] at h
    exact hcode (confirms_cons h).2.1
  unfold respond
  split_ifs with herr hprepare hinfile hzero
  · rw [bind_ok (modify_apply _ _)]
    exact hquiet _ (onCycle_undecided (forward_keeps first)) _ ⟨hdecisions, rfl⟩ (by rw [herr]; decide)
  · refine ⟨fun h => absurd hprepare h.1, fun _ => ?_⟩
    rw [(prepared_undecided e.modern kind first s).1, hdecisions]
  · exact hquiet (throw _) (.throw _) s ⟨hdecisions, rfl⟩ (by rw [hinfile]; decide)
  · exact acknowledged_decisions e w snap command first kind s htaken hzero hseq hprepare hdecisions
  · exact hquiet _ (resultSet_undecided e.modern first) s ⟨hdecisions, rfl⟩ hzero

/-- A command takes one decision if it is a commit that the response confirms while a
transaction is tracked, and otherwise none. -/
theorem serveCommand_decisions (e : Endpoint) (w : Surroundings) (snap : Snapshot) (command : Packet)
    (kind : Statement) (s : Session) (htaken : s.cycle.taken = []) (hseq : s.cycle.seq = 1)
    (hdecisions : s.decisions = []) : DecidesRightly command kind s.transaction
      (finalState (serveCommand e w snap command kind s)) := by
  have hnil (t : Session) (hd : t.decisions = s.decisions) (hc : t.cycle = s.cycle) :
      DecidesRightly command kind s.transaction t := by
    refine decidesRightly_of_not_confirms _ _ _ _ (hd.trans hdecisions) ?_
    rw [hc, htaken]
    exact not_confirms_nil
  rw [serveCommand, bind_apply, writeUpstream_apply]
  by_cases hwrite : (s.upstream.write command.bytes).1 = true
  swap
  · rw [if_neg hwrite]
    exact hnil _ rfl rfl
  rw [if_pos hwrite]
  by_cases hclose : command.code = 0x19
  · simp only [if_pos hclose, modify_apply]
    exact hnil _ rfl rfl
  simp only [if_neg hclose, bind_apply, onCycle, zoom, read_apply]
  cases s.cycle.back with
  | nil => exact hnil _ rfl rfl
  | cons first back =>
    by_cases hfirst : first.seq = s.cycle.seq
    · simp only [hfirst, if_true, htaken, List.nil_append]
      exact respond_decisions e w snap command first kind { s with
        upstream := (s.upstream.write command.bytes).2
        cycle := { s.cycle with back := back, taken := [first], seq := s.cycle.seq + 1 } } rfl
        (hfirst.trans hseq) hdecisions
    · simp only [hfirst, if_false, htaken, List.nil_append]
      refine decidesRightly_of_not_confirms _ _ _ _ hdecisions (fun h => hfirst ?_)
      rw [(confirms_cons h).1, hseq]

end Faultline.MySQL
