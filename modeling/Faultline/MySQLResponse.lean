import Faultline.MySQLCommand

/-! The responses of the protocol, and that a session passes each of them on packet by
packet and stops exactly at its end. -/
namespace Faultline.MySQL

def putLenenc (n : ℕ) : Bytes :=
  if n < 251 then [UInt8.ofNat n]
  else if n < 256^2 then 0xfc :: putLE 2 n
  else if n < 256^3 then 0xfd :: putLE 3 n
  else 0xfe :: putLE 8 n

def lenencString (s : Bytes) : Bytes := putLenenc s.length ++ s

def textColumn : Option Bytes → Bytes
  | none => [0xfb]
  | some s => lenencString s

/-- A row of a result set with `n` columns: text, or binary with its header. -/
def IsRow (n : ℕ) (body : Bytes) : Prop :=
  (∃ columns : List (Option Bytes), columns.length = n ∧ body = columns.flatMap textColumn) ∨
    body.head? = some 0

def IsDefinition (body : Bytes) : Prop := ∃ catalog rest, body = lenencString catalog ++ rest

def Numbered : UInt8 → List Packet → Prop
  | _, [] => True
  | seq, p :: l => p.seq = seq ∧ Numbered (seq + 1) l

/-- `n` definitions and, before `DEPRECATE_EOF`, the packet that ends them. -/
def Definitions (modern : Bool) (n : ℕ) (l : List Packet) : Prop :=
  ∃ packets tail, l = packets ++ tail ∧ packets.length = n ∧ (∀ p ∈ packets, IsDefinition p.body) ∧
    if 0 < n ∧ ¬ modern then ∃ p status, tail = [p] ∧ IsEOF false p.body status else tail = []

inductive Ending (modern : Bool) (p : Packet) : Option ℕ → Prop where
  | eof (status : ℕ) (h : IsEOF modern p.body status) (hmore : moreResults status = false) :
      Ending modern p (some status)
  | error (h : p.code = 0xff) : Ending modern p none

def ResultSet (modern : Bool) (n : ℕ) (l : List Packet) (status : Option ℕ) : Prop :=
  ∃ columns table last, l = columns ++ (table ++ [last]) ∧ Definitions modern n columns ∧
    (∀ p ∈ table, IsRow n p.body) ∧ Ending modern last status

/-- The answer to a prepare command: ID, number of columns, number of parameters, a
filler and the number of warnings. -/
def preparedBody (id columns params warnings : ℕ) (filler : UInt8) : Bytes :=
  0 :: (putLE 4 id ++ (putLE 2 columns ++ (putLE 2 params ++ (filler :: putLE 2 warnings))))

/-- The responses to a command, for a client that knows the given statements, with the
status that they end with. -/
inductive Response (modern : Bool) (statements : OrdMap ℕ Statement) (command : Packet) :
    List Packet → Option ℕ → Prop where
  | nothing (hcommand : command.code = 0x19) : Response modern statements command [] none
  | error (first : Packet) (hcommand : command.code ≠ 0x19) (h : first.code = 0xff) :
      Response modern statements command [first] none
  | ok (first : Packet) (status : ℕ) (hcommand : command.code ≠ 0x19 ∧ command.code ≠ 0x16)
      (h : IsOK 0 first.body status) (hmore : moreResults status = false) :
      Response modern statements command [first] (some status)
  | prepare (first : Packet) (params columns : List Packet) (id n m warnings : ℕ) (filler : UInt8)
      (hcommand : command.code = 0x16) (h : first.body = preparedBody id m n warnings filler)
      (hid : id < 256^4) (hfresh : statements.get? id = none) (hn : n ≤ 4096) (hm : m ≤ 4096)
      (hparams : Definitions modern n params) (hcolumns : Definitions modern m columns) :
      Response modern statements command (first :: (params ++ columns)) none
  | resultSet (first : Packet) (l : List Packet) (n : ℕ) (status : Option ℕ)
      (hcommand : command.code ≠ 0x19 ∧ command.code ≠ 0x16) (hpos : 0 < n) (hn : n ≤ 4096)
      (h : Lenenc n first.body) (hl : ResultSet modern n l status) :
      Response modern statements command (first :: l) status

section Formats

theorem ofNat_toNat (n : ℕ) (h : n < 251) : (UInt8.ofNat n).toNat = n := by
  rw [UInt8.toNat_ofNat']
  omega

/-- The first byte of a short string is no marker: not null, not an error, and the
marker of eight bytes only when the string is longer than any packet. -/
theorem lenencString_head (s rest : Bytes) (b : UInt8)
    (h : (lenencString s ++ rest).head? = some b) : b ≠ 0xff ∧ (b = 0xfe → 256^3 ≤ s.length) := by
  unfold lenencString putLenenc at h
  split_ifs at h with h1 h2 h3
  · simp only [List.cons_append, List.head?_cons, Option.some.injEq] at h
    subst h
    have hne (c : UInt8) (hc : 251 ≤ c.toNat) : UInt8.ofNat s.length ≠ c := by
      intro hh
      have := congrArg UInt8.toNat hh
      rw [ofNat_toNat _ h1] at this
      omega
    exact ⟨hne _ (by decide), fun hh => absurd hh (hne _ (by decide))⟩
  all_goals
    simp only [List.cons_append, List.head?_cons, Option.some.injEq] at h
    subst h
  · exact ⟨by decide, fun hh => absurd hh (by decide)⟩
  · exact ⟨by decide, fun hh => absurd hh (by decide)⟩
  · exact ⟨by decide, fun _ => by omega⟩

theorem isDefinition_code {p : Packet} (h : IsDefinition p.body) : p.code ≠ 0xff := by
  obtain ⟨catalog, rest, hbody⟩ := h
  have hhead := head_of_code p
  rw [hbody] at hhead
  exact (lenencString_head catalog rest _ hhead).1

theorem isRow_code {n : ℕ} (hn : 0 < n) {p : Packet} (h : IsRow n p.body) :
    p.code ≠ 0xff ∧ p.code ≠ 0xfe := by
  have hhead := head_of_code p
  rcases h with ⟨columns, hlen, hbody⟩ | h
  · cases columns with
    | nil =>
      rw [List.length_nil] at hlen
      omega
    | cons c columns =>
      rw [hbody, List.flatMap_cons] at hhead
      cases c with
      | none =>
        simp only [textColumn, List.cons_append, List.head?_cons, Option.some.injEq] at hhead
        rw [← hhead]
        decide
      | some s =>
        obtain ⟨hff, hfe⟩ := lenencString_head s _ _ hhead
        refine ⟨hff, fun hh => ?_⟩
        -- a string of three bytes of length does not fit into a packet
        have hlong := hfe hh
        have hbound := p.bounded
        rw [hbody, List.flatMap_cons] at hbound
        simp only [textColumn, lenencString, List.length_append, maxPacket] at hbound
        omega
  · rw [h, Option.some.injEq] at hhead
    rw [← hhead]
    decide

theorem isRow_eofStatus {n : ℕ} (hn : 0 < n) {p : Packet} (h : IsRow n p.body) (modern : Bool) :
    eofStatus p.body modern = none := by
  rw [eofStatus, if_pos]
  rw [head_of_code, ne_eq, Option.some.injEq]
  exact (isRow_code hn h).2

theorem lenenc_code {n : ℕ} (hn : 0 < n) {p : Packet} (h : Lenenc n p.body) :
    p.code ≠ 0 ∧ p.code ≠ 0xff ∧ p.code ≠ 0xfb := by
  have hhead := head_of_code p
  generalize p.body = body at h hhead
  cases h with
  | one h =>
    simp only [List.head?_cons, Option.some.injEq] at hhead
    have hval : p.code.toNat = n := by rw [← hhead, ofNat_toNat n h]
    refine ⟨?_, ?_, ?_⟩ <;> (intro hh; rw [hh] at hval; simp at hval; omega)
  | two h | three h | eight h =>
    simp only [List.head?_cons, Option.some.injEq] at hhead
    rw [← hhead]
    decide

end Formats

section Runs

def Cycle.passed (x : Cycle) (l back : List Packet) : Cycle :=
  ⟨back, ⟨x.client.written ++ l.flatMap Packet.bytes, none⟩, x.seq + UInt8.ofNat l.length, x.taken ++ l⟩

theorem passed_nil (x : Cycle) (h : x.client.failing = none) : x.passed [] x.back = x := by
  obtain ⟨back, ⟨written, failing⟩, seq, taken⟩ := x
  cases h
  simp [Cycle.passed]

theorem passed_singleton (x : Cycle) (p : Packet) (back : List Packet) : x.passed [p] back =
    ⟨back, ⟨x.client.written ++ p.bytes, none⟩, x.seq + 1, x.taken ++ [p]⟩ := by
  simp [Cycle.passed]

theorem seq_add (seq : UInt8) (m n : ℕ) :
    seq + UInt8.ofNat (m + n) = seq + UInt8.ofNat m + UInt8.ofNat n := by
  rw [UInt8.ofNat_add, UInt8.add_assoc]

theorem passed_passed (x : Cycle) (l l' back back' : List Packet) :
    (x.passed l back).passed l' back' = x.passed (l ++ l') back' := by
  simp [Cycle.passed, UInt8.add_assoc]

theorem passed_cons (x : Cycle) (p : Packet) (l back back' : List Packet) : x.passed (p :: l) back' =
    Cycle.passed ⟨back, ⟨x.client.written ++ p.bytes, none⟩, x.seq + 1, x.taken ++ [p]⟩ l back' := by
  rw [← passed_singleton, passed_passed]
  rfl

theorem numbered_append (seq : UInt8) (l l' : List Packet) :
    Numbered seq (l ++ l') ↔ Numbered seq l ∧ Numbered (seq + UInt8.ofNat l.length) l' := by
  induction l generalizing seq with
  | nil => simp [Numbered]
  | cons p l ih =>
    rw [List.cons_append, Numbered, ih, Numbered, List.length_cons, Nat.add_comm, seq_add, and_assoc]
    rfl

theorem forward_open (p : Packet) (back : List Packet) (client : Sink) (seq : UInt8)
    (taken : List Packet) (h : client.failing = none) : forward p ⟨back, client, seq, taken⟩ =
      .ok () ⟨back, ⟨client.written ++ p.bytes, none⟩, seq, taken⟩ := by
  rw [forward_apply, Sink.write_open _ _ h, if_pos rfl]

theorem read_forward (x : Cycle) (p : Packet) (back : List Packet) (hback : x.back = p :: back)
    (hseq : p.seq = x.seq) (hopen : x.client.failing = none) :
    ∃ y, read x = .ok p y ∧ forward p y = .ok () (x.passed [p] back) := by
  refine ⟨{ x with back := back, taken := x.taken ++ [p], seq := x.seq + 1 }, ?_, ?_⟩
  · rw [read_apply, hback]
    simp [hseq]
  · rw [forward_open _ _ _ _ _ hopen, passed_singleton]

theorem definitionPackets_run (l back : List Packet) (x : Cycle) (hback : x.back = l ++ back)
    (hseq : Numbered x.seq l) (hno : NoError l) (hopen : x.client.failing = none) :
    definitionPackets l.length x = .ok () (x.passed l back) := by
  induction l generalizing x with
  | nil =>
    rw [List.nil_append] at hback
    rw [← hback, passed_nil x hopen]
    rfl
  | cons p l ih =>
    obtain ⟨y, hread, hforward⟩ := read_forward x p (l ++ back) hback hseq.1 hopen
    have hcode := hno p (List.mem_cons_self ..)
    have hrest := ih (x.passed [p] (l ++ back)) rfl (by simpa [Cycle.passed] using hseq.2)
      (fun q hq => hno q (List.mem_cons_of_mem _ hq)) rfl
    rw [List.length_cons, definitionPackets, bind_ok hread]
    simp only [hcode, if_false]
    rw [bind_ok hforward, hrest, passed_passed]
    rfl

theorem definitions_run (modern : Bool) (n : ℕ) (hn : n ≤ 4096) (l back : List Packet) (x : Cycle)
    (hback : x.back = l ++ back) (hseq : Numbered x.seq l) (hl : Definitions modern n l)
    (hopen : x.client.failing = none) : definitions modern n x = .ok () (x.passed l back) := by
  obtain ⟨packets, tail, rfl, hlen, hdefs, htail⟩ := hl
  rw [numbered_append] at hseq
  rw [List.append_assoc] at hback
  have hpackets := definitionPackets_run packets (tail ++ back) x hback hseq.1
    (fun p hp => isDefinition_code (hdefs p hp)) hopen
  rw [hlen] at hpackets
  simp only [definitions, if_neg (not_lt.mpr hn)]
  rw [bind_ok hpackets]
  split_ifs at htail ⊢ with heof
  · obtain ⟨p, status, rfl, hstatus⟩ := htail
    obtain ⟨y, hread, hforward⟩ := read_forward (x.passed packets ([p] ++ back)) p back rfl
      hseq.2.1 rfl
    rw [bind_ok hread]
    simp only [(eofStatus_eq_some_iff _ _ _).mpr hstatus, reduceCtorEq, if_false]
    rw [hforward, passed_passed]
  · rw [htail, List.append_nil, List.nil_append]
    rfl

theorem captureError_forward (p : Packet) (back : List Packet) (client : Sink) (seq : UInt8)
    (taken : List Packet) (h : client.failing = none) :
    captureError (forward p) ⟨back, client, seq, taken⟩ =
      .ok (.ok ()) ⟨back, ⟨client.written ++ p.bytes, none⟩, seq, taken⟩ := by
  rw [captureError, forward_open p _ _ _ _ h]

theorem rows_run (modern : Bool) (n : ℕ) (hn : 0 < n) (table : List Packet) (last : Packet)
    (back : List Packet) (x : Cycle) (status : Option ℕ) (htable : ∀ p ∈ table, IsRow n p.body)
    (hlast : Ending modern last status) (hseq : Numbered x.seq (table ++ [last]))
    (hopen : x.client.failing = none) :
    rows modern (table ++ [last] ++ back) x =
      .ok (status.getD 0, status.isSome, .ok ()) (x.passed (table ++ [last]) back) := by
  have haccept (p : Packet) (l : List Packet) (x : Cycle) (h : p.seq = x.seq) : accept p l x =
      .ok () { x with back := l, taken := x.taken ++ [p], seq := x.seq + 1 } := by
    rw [accept_apply, if_pos h]
  induction table generalizing x with
  | nil =>
    rw [List.nil_append, List.singleton_append, rows, bind_ok (haccept last back x hseq.1)]
    cases hlast with
    | eof status h hmore =>
      have hcode := code_of_eofStatus ((eofStatus_eq_some_iff _ _ _).mpr h)
      simp only [hcode, if_false, (eofStatus_eq_some_iff _ _ _).mpr h, hmore, Bool.false_eq_true]
      rw [bind_ok (captureError_forward _ _ _ _ _ hopen), passed_singleton]
      rfl
    | error h =>
      simp only [h, if_true]
      rw [bind_ok (captureError_forward _ _ _ _ _ hopen), passed_singleton]
      rfl
  | cons p table ih =>
    have hrow := htable p (List.mem_cons_self ..)
    have hrest := ih (x.passed [p] (table ++ [last] ++ back))
      (fun q hq => htable q (List.mem_cons_of_mem _ hq)) (by simpa [Cycle.passed] using hseq.2) rfl
    rw [List.cons_append, List.cons_append, rows, bind_ok (haccept p _ x hseq.1)]
    simp only [(isRow_code hn hrow).1, if_false, isRow_eofStatus hn hrow]
    rw [bind_ok (forward_open _ _ _ _ _ hopen)]
    rw [passed_passed, passed_singleton] at hrest
    exact hrest

theorem result_run (modern : Bool) (n : ℕ) (hpos : 0 < n) (hn : n ≤ 4096) (first : Packet)
    (l back : List Packet) (x : Cycle) (status : Option ℕ) (hfirst : Lenenc n first.body)
    (hl : ResultSet modern n l status) (hback : x.back = l ++ back) (hseq : Numbered x.seq l)
    (hopen : x.client.failing = none) : result modern first x =
      .ok (status.getD 0, status.isSome, .ok ())
        (Cycle.passed { x with client := ⟨x.client.written ++ first.bytes, none⟩ } l back) := by
  obtain ⟨columns, table, last, rfl, hcolumns, htable, hlast⟩ := hl
  have hlenenc := lenenc_append n first.body [] hfirst
  rw [List.append_nil] at hlenenc
  rw [numbered_append] at hseq
  obtain ⟨xback, client, seq, taken⟩ := x
  simp only at hback hseq hopen
  subst hback
  set y : Cycle := ⟨columns ++ (table ++ [last]) ++ back, ⟨client.written ++ first.bytes, none⟩, seq, taken⟩
    with hy
  have hdefs := definitions_run modern n hn columns (table ++ [last] ++ back) y
    (by rw [hy, List.append_assoc]) hseq.1 hcolumns rfl
  have hrows := rows_run modern n hpos table last back (y.passed columns (table ++ [last] ++ back))
    status htable hlast hseq.2 rfl
  simp only [result, hlenenc, show ¬ (n = 0 ∨ 4096 < n) by omega, if_false]
  rw [bind_ok (forward_open _ _ _ _ _ hopen), bind_ok hdefs, bind_ok (get_apply _)]
  rw [passed_passed] at hrows
  exact hrows

end Runs

theorem onCycle_ok {α : Type} {m : EStateM SessionError Cycle α} {s : Session} {a : α} {x : Cycle}
    (h : m s.cycle = .ok a x) : onCycle m s = .ok a { s with cycle := x } := by
  rw [onCycle, zoom, h]

theorem writeUpstream_open (p : Packet) (s : Session) (h : s.upstream.failing = none) :
    writeUpstream p s = .ok () { s with upstream := ⟨s.upstream.written ++ p.bytes, none⟩ } := by
  rw [writeUpstream_apply, Sink.write_open _ _ h, if_pos rfl]

theorem uint32At_append (a b : Bytes) (v : ℕ) (h : v < 256^4) :
    uint32At (a ++ (putLE 4 v ++ b)) a.length = v := by
  rw [uint32At, List.drop_left, List.take_append_of_le_length (by simp),
    List.take_of_length_le (by simp), leNat_putLE, Nat.mod_eq_of_lt h]

theorem preparedBody_fields (first : Packet) (id m n warnings : ℕ) (filler : UInt8)
    (h : first.body = preparedBody id m n warnings filler) (hid : id < 256^4) (hm : m < 256^2)
    (hn : n < 256^2) : first.code = 0 ∧ first.body.length = 12 ∧ uint32At first.body 1 = id ∧
      uint16At first.body 7 = n ∧ uint16At first.body 5 = m := by
  have hcode : first.code = 0 := code_of_head (by rw [h]; rfl)
  rw [h]
  refine ⟨hcode, by simp [preparedBody], uint32At_append [0] _ id hid, ?_, ?_⟩
  · have hword := uint16At_append (0 :: (putLE 4 id ++ putLE 2 m)) (filler :: putLE 2 warnings) n hn
    simpa [preparedBody] using hword
  · have hword := uint16At_append (0 :: putLE 4 id) (putLE 2 n ++ (filler :: putLE 2 warnings)) m hm
    simpa [preparedBody] using hword

def Withholds (w : Surroundings) (decisions : List Decision) : Prop :=
  ∃ d ∈ decisions, d.selected = true ∧ applyFault w.elapsed d.fault ≠ some true

section Commands
variable (e : Endpoint) (w : Surroundings) (snap : Snapshot) (command : Packet) (kind : Statement)
  (b : Session)

theorem serve_nothing (hcommand : command.code = 0x19) (hclient : b.cycle.client.failing = none)
    (hupstream : b.upstream.failing = none) : ∃ t, serveCommand e w snap command kind b = .ok () t ∧
      t.cycle = b.cycle.passed [] b.cycle.back ∧ t.decisions = b.decisions ∧
      t.upstream = ⟨b.upstream.written ++ command.bytes, none⟩ := by
  rw [serveCommand, bind_ok (writeUpstream_open command b hupstream), if_pos hcommand, modify_apply]
  exact ⟨_, rfl, (passed_nil b.cycle hclient).symm, rfl, rfl⟩

theorem serve_first (first : Packet) (back : List Packet) (hcommand : command.code ≠ 0x19)
    (hback : b.cycle.back = first :: back) (hseq : first.seq = b.cycle.seq)
    (hupstream : b.upstream.failing = none) :
    serveCommand e w snap command kind b = respond e w snap command kind first { b with
      upstream := ⟨b.upstream.written ++ command.bytes, none⟩
      cycle := ⟨back, b.cycle.client, b.cycle.seq + 1, b.cycle.taken ++ [first]⟩ } := by
  rw [serveCommand, bind_ok (writeUpstream_open command b hupstream), if_neg hcommand]
  refine bind_ok (onCycle_ok ?_) _
  rw [read_apply, hback]
  simp [hseq]

theorem respond_error (first : Packet) (hfirst : first.code = 0xff)
    (hclient : b.cycle.client.failing = none) :
    ∃ t, respond e w snap command kind first b = .ok () t ∧
      t.cycle = { b.cycle with client := ⟨b.cycle.client.written ++ first.bytes, none⟩ } ∧
      t.decisions = b.decisions ∧ t.upstream = b.upstream := by
  rw [respond, if_pos hfirst, bind_ok (modify_apply _ _)]
  exact ⟨_, onCycle_ok (forward_open first _ _ _ _ hclient), rfl, rfl, rfl⟩

theorem respond_prepare (first : Packet) (params columns back : List Packet)
    (id n m warnings : ℕ) (filler : UInt8) (hcommand : command.code = 0x16)
    (h : first.body = preparedBody id m n warnings filler) (hid : id < 256^4)
    (hfresh : b.statements.get? id = none) (hn : n ≤ 4096) (hm : m ≤ 4096)
    (hparams : Definitions e.modern n params) (hcolumns : Definitions e.modern m columns)
    (hback : b.cycle.back = params ++ columns ++ back) (hseq : Numbered b.cycle.seq (params ++ columns))
    (hclient : b.cycle.client.failing = none) :
    ∃ t, respond e w snap command kind first b = .ok () t ∧
      t.cycle = Cycle.passed { b.cycle with client := ⟨b.cycle.client.written ++ first.bytes, none⟩ }
        (params ++ columns) back ∧
      t.decisions = b.decisions ∧ t.upstream = b.upstream := by
  obtain ⟨hcode, hlen, hid', hn', hm'⟩ := preparedBody_fields first id m n warnings filler h hid
    (by omega) (by omega)
  rw [numbered_append] at hseq
  rw [List.append_assoc] at hback
  obtain ⟨statements, transaction, ⟨cback, client, seq, taken⟩, upstream, service, event, outcome, events,
    decisions, closed⟩ := b
  simp only at hback hseq hclient hfresh
  subst hback
  set x : Cycle := ⟨params ++ (columns ++ back), ⟨client.written ++ first.bytes, none⟩, seq, taken⟩
  have hp := definitions_run e.modern n hn params (columns ++ back) x rfl hseq.1 hparams rfl
  have hc := definitions_run e.modern m hm columns back (x.passed params (columns ++ back)) rfl hseq.2
    hcolumns rfl
  rw [passed_passed] at hc
  have hne : ¬ (first.body.length ≠ 12 ∨ first.code ≠ 0) := by simp [hlen, hcode]
  rw [respond, if_neg (by rw [hcode]; decide), if_pos hcommand]
  simp only [prepared, hne, if_false]
  rw [bind_ok (get_apply _)]
  simp only [hid', hfresh, Option.isSome_none, Bool.false_eq_true, if_false, hn', hm']
  rw [bind_ok (onCycle_ok (forward_open first _ _ _ _ hclient)), bind_ok (onCycle_ok hp),
    bind_ok (onCycle_ok hc), modify_apply]
  exact ⟨_, rfl, rfl, rfl, rfl⟩

theorem respond_resultSet (first : Packet) (l back : List Packet) (n : ℕ) (status : Option ℕ)
    (hcommand : command.code ≠ 0x16) (hpos : 0 < n) (hn : n ≤ 4096) (h : Lenenc n first.body)
    (hl : ResultSet e.modern n l status) (hback : b.cycle.back = l ++ back)
    (hseq : Numbered b.cycle.seq l) (hclient : b.cycle.client.failing = none) :
    ∃ t, respond e w snap command kind first b = .ok () t ∧
      t.cycle = Cycle.passed { b.cycle with client := ⟨b.cycle.client.written ++ first.bytes, none⟩ } l back ∧
      t.decisions = b.decisions ∧ t.upstream = b.upstream := by
  obtain ⟨hzero, herr, hinfile⟩ := lenenc_code hpos h
  have hresult := result_run e.modern n hpos hn first l back b.cycle status h hl hback hseq hclient
  have hcapture : captureError (onCycle (result e.modern first)) b =
      .ok (.ok (status.getD 0, status.isSome, .ok ())) { b with
        cycle := Cycle.passed { b.cycle with client := ⟨b.cycle.client.written ++ first.bytes, none⟩ } l back } := by
    rw [captureError, onCycle_ok hresult]
  rw [respond, if_neg herr, if_neg hcommand, if_neg hinfile, if_neg hzero, resultSet, bind_ok hcapture]
  simp only
  split_ifs
  · exact ⟨_, rfl, rfl, rfl, rfl⟩
  · exact ⟨_, rfl, rfl, rfl, rfl⟩

theorem commit_outcome : ∃ d t, commit e w snap b =
      (match (if d.selected then applyFault w.elapsed d.fault else some true) with
        | none => .error .crashed t
        | some forwarded => .ok forwarded t) ∧
    t.cycle = b.cycle ∧ t.upstream = b.upstream ∧ t.decisions = b.decisions ++ [d] := by
  rw [commit, bind_ok (decide_apply e w snap b)]
  generalize decideResult e w snap b = r
  generalize decisionOf r.1 = d
  simp only [setEvent, record, bind_apply, get_apply, modify_apply]
  refine ⟨d, ?_⟩
  cases hselected : d.selected with
  | false => exact ⟨_, rfl, rfl, rfl, rfl⟩
  | true =>
    simp only [Bool.not_true, Bool.false_eq_true, if_false, if_true]
    cases applyFault w.elapsed d.fault with
    | none => exact ⟨_, rfl, rfl, rfl, rfl⟩
    | some forwarded => exact ⟨_, rfl, rfl, rfl, rfl⟩

theorem respond_ok (first : Packet) (flags : ℕ) (hcommand : command.code ≠ 0x16)
    (h : IsOK 0 first.body flags) (hmore : moreResults flags = false)
    (hdecisions : b.decisions = []) (hclient : b.cycle.client.failing = none) :
    ∃ t, finalState (respond e w snap command kind first b) = t ∧ t.upstream = b.upstream ∧
      ((¬ Withholds w t.decisions ∧ stopError (respond e w snap command kind first b) = none ∧
          t.cycle = { b.cycle with client := ⟨b.cycle.client.written ++ first.bytes, none⟩ }) ∨
        (Withholds w t.decisions ∧ (stopError (respond e w snap command kind first b)).isSome ∧
          t.cycle = b.cycle)) := by
  have hcode : first.code = 0 := code_of_head h.head
  rw [respond, if_neg (by rw [hcode]; decide), if_neg hcommand, if_neg (by rw [hcode]; decide),
    if_pos hcode, acknowledged_apply e w snap command first kind b flags
      (okStatus_of_isOK 0 (.inl rfl) _ _ h) hmore]
  have hforward (s : Session) (hs : s.cycle = b.cycle) : onCycle (forward first) s = .ok () { s with
      cycle := { b.cycle with client := ⟨b.cycle.client.written ++ first.bytes, none⟩ } } := by
    refine onCycle_ok ?_
    rw [hs]
    exact forward_open first _ _ _ _ hclient
  by_cases hconfirmed : kind = .commit ∧ b.transaction = true ∧ ¬ inTrans flags = true
  · rw [if_pos hconfirmed]
    obtain ⟨d, t, hcommit, hcycle, hup, hd⟩ :=
      commit_outcome e w snap (b.acknowledge command kind flags)
    have hds : t.decisions = [d] := by
      rw [hd, show (b.acknowledge command kind flags).decisions = [] from hdecisions, List.nil_append]
    have hwithholds : Withholds w t.decisions ↔
        (if d.selected then applyFault w.elapsed d.fault else some true) ≠ some true := by
      rw [hds]
      cases hs : d.selected <;> simp [Withholds, hs]
    rw [bind_apply, hcommit]
    cases hout : (if d.selected then applyFault w.elapsed d.fault else some true) with
    | none =>
      rw [hout] at hwithholds
      exact ⟨t, rfl, hup, .inr ⟨hwithholds.mpr (by simp), rfl, hcycle⟩⟩
    | some forwarded =>
      rw [hout] at hwithholds
      cases forwarded with
      | false => exact ⟨_, rfl, hup, .inr ⟨hwithholds.mpr (by simp), rfl, hcycle⟩⟩
      | true =>
        simp only [if_true]
        rw [hforward t hcycle]
        exact ⟨_, rfl, hup, .inl ⟨fun hh => hwithholds.mp hh rfl, rfl, rfl⟩⟩
  · rw [if_neg hconfirmed, hforward (b.acknowledge command kind flags) rfl]
    refine ⟨_, rfl, rfl, .inl ⟨?_, rfl, rfl⟩⟩
    rintro ⟨d, hd, -⟩
    have hd : d ∈ b.decisions := hd
    rw [hdecisions] at hd
    cases hd

end Commands

structure PassedOn (e : Endpoint) (s : Session) (w : Surroundings) (command : Packet)
    (response rest : List Packet) (status : Option ℕ) (r : CycleRecord) (t : Session) : Prop where
  sent : t.upstream = ⟨s.upstream.written ++ command.bytes, none⟩
  /-- Exactly the packets of the response are taken, so the next command finds the rest. -/
  taken : r.taken = response
  next : t.cycle.back = rest
  forwarded : ¬ Withholds w r.decisions → t.closed = false ∧
    t.cycle.client = ⟨s.cycle.client.written ++ response.flatMap Packet.bytes, none⟩
  /-- Only an OK packet is ever withheld; then nothing is forwarded and the session ends. -/
  withheld : Withholds w r.decisions → t.closed = true ∧ t.cycle.client = s.cycle.client ∧
    ∃ first flags, response = [first] ∧ IsOK 0 first.body flags
  /-- A result set ends with the status of its last packet, or without one after an error. -/
  reported : ∀ first l, response = first :: l → command.code ≠ 0x16 → first.code ≠ 0 → first.code ≠ 0xff →
    ∃ x, result e.modern first ⟨l ++ rest, s.cycle.client, 2, [first]⟩ =
      .ok (status.getD 0, status.isSome, .ok ()) x ∧ x.back = rest

theorem passedOn_of_returned (e : Endpoint) (s : Session) (w : Surroundings) (command : Packet)
    (kind : Statement) (response rest : List Packet) (status : Option ℕ) (hopen : s.closed = false)
    (hserve : admission s.statements command = .serve kind)
    (h : ∃ t, serveCommand e w (s.begin e w).service.acquire command kind (s.begin e w) = .ok () t ∧
      t.cycle = (s.begin e w).cycle.passed response rest ∧ t.decisions = [] ∧
      t.upstream = ⟨s.upstream.written ++ command.bytes, none⟩)
    (hreported : ∀ first l, response = first :: l → command.code ≠ 0x16 → first.code ≠ 0 → first.code ≠ 0xff →
      ∃ x, result e.modern first ⟨l ++ rest, s.cycle.client, 2, [first]⟩ =
        .ok (status.getD 0, status.isSome, .ok ()) x ∧ x.back = rest) :
    ∃ r t, exchangeStep e s (command, w) = (some r, t) ∧
      PassedOn e s w command response rest status r t := by
  obtain ⟨t, ht, hcycle, hdecisions, hupstream⟩ := h
  refine ⟨⟨command, response, [], none⟩, t.finish w none, ?_, ?_⟩
  · simp only [exchangeStep, hopen, Bool.false_eq_true, if_false, hserve, ht, finalState_ok,
      stopError_ok, hcycle, hdecisions]
    rfl
  · refine ⟨hupstream, rfl, ?_, fun _ => ⟨rfl, ?_⟩, ?_, hreported⟩
    · exact congrArg Cycle.back hcycle
    · exact congrArg Cycle.client hcycle
    · rintro ⟨d, hd, -⟩
      cases hd

/-- Every response of the protocol to an admitted command is passed on, packet by
packet and to its end, when no write fails. -/
theorem response_passed_on (e : Endpoint) (s : Session) (w : Surroundings) (command : Packet)
    (kind : Statement) (response rest : List Packet) (status : Option ℕ) (hopen : s.closed = false)
    (hserve : admission s.statements command = .serve kind)
    (hresponse : Response e.modern s.statements command response status)
    (hseq : Numbered 1 response) (hback : s.cycle.back = response ++ rest)
    (hclient : s.cycle.client.failing = none) (hupstream : s.upstream.failing = none) :
    ∃ r t, exchangeStep e s (command, w) = (some r, t) ∧
      PassedOn e s w command response rest status r t := by
  set b := s.begin e w with hb
  -- what is left to show for a response that starts with a packet and needs no decision
  have hfirst (first : Packet) (l : List Packet) (hl : response = first :: l)
      (hcommand : command.code ≠ 0x19)
      (h : ∀ c : Session, c.cycle = ⟨l ++ rest, s.cycle.client, 2, [first]⟩ → c.statements = s.statements →
        ∃ t, respond e w b.service.acquire command kind first c = .ok () t ∧
          t.cycle = Cycle.passed { c.cycle with client := ⟨c.cycle.client.written ++ first.bytes, none⟩ } l rest ∧
          t.decisions = c.decisions ∧ t.upstream = c.upstream) :
      ∃ t, serveCommand e w b.service.acquire command kind b = .ok () t ∧
        t.cycle = b.cycle.passed response rest ∧ t.decisions = [] ∧
        t.upstream = ⟨s.upstream.written ++ command.bytes, none⟩ := by
    subst hl
    rw [serve_first e w _ command kind b first (l ++ rest) hcommand hback hseq.1 hupstream]
    obtain ⟨t, ht, hcycle, hdecisions, hup⟩ := h { b with
      upstream := ⟨b.upstream.written ++ command.bytes, none⟩
      cycle := ⟨l ++ rest, b.cycle.client, b.cycle.seq + 1, b.cycle.taken ++ [first]⟩ } rfl rfl
    refine ⟨t, ht, ?_, hdecisions, hup⟩
    rw [hcycle]
    exact (passed_cons b.cycle first l (l ++ rest) rest).symm
  cases hresponse with
  | nothing hcommand =>
    refine passedOn_of_returned e s w command kind [] rest none hopen hserve ?_
      (fun _ _ h => by cases h)
    obtain ⟨t, ht, hcycle, hdecisions, hup⟩ := serve_nothing e w b.service.acquire command kind b hcommand
      hclient hupstream
    refine ⟨t, ht, hcycle.trans ?_, hdecisions, hup⟩
    rw [show b.cycle.back = rest from hback]
  | error first hcommand h =>
    refine passedOn_of_returned e s w command kind [first] rest none hopen hserve
      (hfirst first [] rfl hcommand (fun c hc _ => ?_)) (fun _ _ hl _ _ hne => ?_)
    · obtain ⟨t, ht, hcycle, hdecisions, hup⟩ := respond_error e w b.service.acquire command kind c first h
        (by rw [hc]; exact hclient)
      refine ⟨t, ht, ?_, hdecisions, hup⟩
      rw [hcycle, hc]
      simp [Cycle.passed]
    · cases hl
      exact absurd h hne
  | ok first flags hcommand h hmore =>
    have hfirst := serve_first e w b.service.acquire command kind b first rest hcommand.1 hback hseq.1
      hupstream
    obtain ⟨t, ht, hup, hcases⟩ := respond_ok e w b.service.acquire command kind { b with
      upstream := ⟨b.upstream.written ++ command.bytes, none⟩
      cycle := ⟨rest, b.cycle.client, b.cycle.seq + 1, b.cycle.taken ++ [first]⟩ } first flags hcommand.2 h hmore
      rfl hclient
    rw [← hfirst] at ht hcases
    set out := serveCommand e w b.service.acquire command kind b
    refine ⟨⟨command, t.cycle.taken, t.decisions, stopError out⟩, t.finish w (stopError out), ?_, ?_⟩
    · rw [← ht]
      simp only [exchangeStep, hopen, Bool.false_eq_true, if_false, hserve]
      rfl
    have hcode : first.code = 0 := code_of_head h.head
    have hreported (first' : Packet) (l' : List Packet) (heq : [first] = first' :: l')
        (hne : first'.code ≠ 0) : False := by
      cases heq
      exact hne hcode
    rcases hcases with ⟨hno, hstop, hcycle⟩ | ⟨hyes, hstop, hcycle⟩
    · refine ⟨hup, by simp [hcycle, hb, Session.begin], congrArg Cycle.back hcycle, fun _ => ⟨?_, ?_⟩,
        fun hh => absurd hh hno, fun first' l' heq _ hne => (hreported first' l' heq hne).elim⟩
      · simp [Session.finish, hstop]
      · change t.cycle.client = _
        rw [hcycle]
        simp [hb, Session.begin]
    · refine ⟨hup, by simp [hcycle, hb, Session.begin], congrArg Cycle.back hcycle, fun hh => absurd hyes hh,
        fun _ => ⟨?_, ?_, first, flags, rfl, h⟩,
        fun first' l' heq _ hne => (hreported first' l' heq hne).elim⟩
      · simpa [Session.finish] using hstop
      · change t.cycle.client = _
        rw [hcycle]
        rfl
  | prepare first params columns id n m warnings filler hcommand h hid hfresh hn hm hparams hcolumns =>
    refine passedOn_of_returned e s w command kind _ rest none hopen hserve
      (hfirst first _ rfl (by rw [hcommand]; decide) (fun c hc hs => ?_)) (fun _ _ _ hne => absurd hcommand hne)
    refine respond_prepare e w b.service.acquire command kind c first params columns rest id n m warnings
      filler hcommand h hid (by rw [hs]; exact hfresh) hn hm hparams hcolumns ?_ ?_ ?_
    · rw [hc]
    · rw [hc]
      exact hseq.2
    · rw [hc]
      exact hclient
  | resultSet first l n status hcommand hpos hn h hl =>
    refine passedOn_of_returned e s w command kind _ rest status hopen hserve
      (hfirst first l rfl hcommand.1 (fun c hc _ => ?_)) (fun first' l' heq _ _ _ => ?_)
    · refine respond_resultSet e w b.service.acquire command kind c first l rest n status hcommand.2 hpos hn h
        hl ?_ ?_ ?_
      · rw [hc]
      · rw [hc]
        exact hseq.2
      · rw [hc]
        exact hclient
    · cases heq
      exact ⟨_, result_run e.modern n hpos hn first l rest ⟨l ++ rest, s.cycle.client, 2, [first]⟩ status h hl
        rfl hseq.2 hclient, rfl⟩

structure Turn where
  command : Packet
  surroundings : Surroundings
  response : List Packet

/-- As long as the session is open, every command is admitted and gets a response of
the protocol. -/
inductive Converses (e : Endpoint) : Session → List Turn → Prop where
  | nil (s : Session) : Converses e s []
  | cons (s : Session) (turn : Turn) (turns : List Turn)
      (hturn : s.closed = false → ∃ kind status, admission s.statements turn.command = .serve kind ∧
        Response e.modern s.statements turn.command turn.response status ∧ Numbered 1 turn.response)
      (hturns : Converses e (exchangeStep e s (turn.command, turn.surroundings)).2 turns) :
      Converses e s (turn :: turns)

def converse (e : Endpoint) (s : Session) (turns : List Turn) : Session :=
  (exchange e s (turns.map (fun turn => (turn.command, turn.surroundings)))).2

theorem converse_closed (e : Endpoint) (s : Session) (turns : List Turn) (h : s.closed = true) :
    converse e s turns = s := by
  induction turns with
  | nil => rfl
  | cons turn turns ih =>
    have hstep : exchangeStep e s (turn.command, turn.surroundings) = (none, s) := by
      rw [exchangeStep, if_pos h]
    change converse e (exchangeStep e s (turn.command, turn.surroundings)).2 turns = s
    rw [hstep, ih]

/-- Turn `k` of a conversation that reaches it: its response is passed on, and what is
left for the later turns is what their responses and the rest of the stream hold. -/
def TurnPassedOn (e : Endpoint) (s : Session) (turns : List Turn) (rest : List Packet) (k : ℕ) : Prop :=
  ∀ turn, turns[k]? = some turn → (converse e s (turns.take k)).closed = false →
    ∃ r t status, Response e.modern (converse e s (turns.take k)).statements turn.command turn.response status ∧
      exchangeStep e (converse e s (turns.take k)) (turn.command, turn.surroundings) = (some r, t) ∧
      PassedOn e (converse e s (turns.take k)) turn.surroundings turn.command turn.response
        ((turns.drop (k+1)).flatMap Turn.response ++ rest) status r t

/-- In every conversation each response is passed on from its first packet to its last,
and the client gets all responses in order, or those before an acknowledgement that a
fault withheld. -/
theorem conversation_passed_on (e : Endpoint) (s : Session) (turns : List Turn) (rest : List Packet)
    (hopen : s.closed = false) (h : Converses e s turns)
    (hback : s.cycle.back = turns.flatMap Turn.response ++ rest)
    (hclient : s.cycle.client.failing = none) (hupstream : s.upstream.failing = none) :
    (∀ k, TurnPassedOn e s turns rest k) ∧ ∃ n ≤ turns.length,
      (converse e s turns).cycle.client.written = s.cycle.client.written ++
        ((turns.take n).flatMap Turn.response).flatMap Packet.bytes ∧
      ((converse e s turns).closed = false → n = turns.length ∧ (converse e s turns).cycle.back = rest) := by
  induction h with
  | nil s =>
    refine ⟨fun k turn hk => ?_, 0, le_rfl, by simp [converse, exchange, run], fun _ => ⟨rfl, hback⟩⟩
    cases hk
  | cons s turn turns hturn hturns ih =>
    obtain ⟨kind, status, hserve, hresponse, hseq⟩ := hturn hopen
    rw [List.flatMap_cons, List.append_assoc] at hback
    obtain ⟨r, t, hstep, hpassed⟩ := response_passed_on e s turn.surroundings turn.command kind
      turn.response (turns.flatMap Turn.response ++ rest) status hopen hserve hresponse hseq hback hclient
      hupstream
    have hcons (l : List Turn) : converse e s (turn :: l) = converse e t l := by
      change converse e (exchangeStep e s (turn.command, turn.surroundings)).2 l = _
      rw [hstep]
    rw [hstep] at ih hturns
    -- the first turn is the step just made, the later ones start from the state after it
    have hturns (hlater : ∀ k, t.closed = false → TurnPassedOn e t turns rest k) (k : ℕ) :
        TurnPassedOn e s (turn :: turns) rest k := by
      intro turn' hk hreached
      cases k with
      | zero =>
        cases hk
        exact ⟨r, t, status, hresponse, hstep, hpassed⟩
      | succ k =>
        rw [List.take_succ_cons, hcons] at hreached ⊢
        cases hclosed : t.closed with
        | false => exact hlater k hclosed turn' hk hreached
        | true =>
          rw [converse_closed e t _ hclosed, hclosed] at hreached
          cases hreached
    rw [hcons]
    by_cases hw : Withholds turn.surroundings r.decisions
    · obtain ⟨hclosed, hsame, -⟩ := hpassed.withheld hw
      refine ⟨hturns (fun k hh => ?_), 0, Nat.zero_le _, ?_, fun hh => ?_⟩
      · rw [hclosed] at hh
        cases hh
      · simp [converse_closed e t turns hclosed, hsame]
      · rw [converse_closed e t turns hclosed, hclosed] at hh
        cases hh
    · obtain ⟨ho, hc⟩ := hpassed.forwarded hw
      obtain ⟨hlater, n, hn, hwritten, hfinal⟩ :=
        ih ho hpassed.next (by rw [hc]) (by rw [hpassed.sent])
      refine ⟨hturns (fun k _ => hlater k), n+1, by simpa using hn, ?_, fun hh => ?_⟩
      · rw [hwritten, hc]
        simp
      · obtain ⟨rfl, hrest⟩ := hfinal hh
        exact ⟨by simp, hrest⟩

def samplePacket (seq : UInt8) (first : UInt8) (rest : Bytes) (h : rest.length < maxPacket) : Packet :=
  ⟨seq, first :: rest, by simp, h⟩

/-- The result set of a query for one column and one row, with the packets that end the
definitions and the rows. -/
def sampleTurn : Turn where
  command := samplePacket 0 3 (bytesOf "SELECT 1") (by decide +kernel)
  surroundings := ⟨[], [], true, "flow", 0, 0⟩
  response := [samplePacket 1 1 [] (by decide), samplePacket 2 3 (bytesOf "def") (by decide +kernel),
    samplePacket 3 0xfe [0, 0, 2, 0] (by decide), samplePacket 4 1 (bytesOf "1") (by decide +kernel),
    samplePacket 5 0xfe [0, 0, 2, 0] (by decide)]

theorem conversation_passed_on_query : ∃ service : Service,
    ∀ k, TurnPassedOn ⟨standardLibrary, false, "db", false⟩
      (.start service ⟨[], none⟩ ⟨[], none⟩ sampleTurn.response) [sampleTurn] [] k := by
  obtain ⟨d, hd, -⟩ := sampleFinish_ok [] (by decide +kernel)
  have hvalid := (finish_valid _ _ _ _ _ d hd).1
  obtain ⟨service, -⟩ : ∃ s, Service.new standardLibrary (some d) "run" 0 = .ok s := by
    simp [Service.new, Engine.new, hvalid]
  have hresponse : Response false ∅ sampleTurn.command sampleTurn.response (some 2) := by
    refine .resultSet _ _ 1 (some 2) (by decide +kernel) (by decide) (by decide) (.one 1 (by decide)) ?_
    refine ⟨[_, _], [_], _, rfl, ⟨[_], [_], rfl, rfl, ?_, ?_⟩, ?_, ?_⟩
    · exact List.forall_mem_singleton.mpr ⟨bytesOf "def", [], by decide +kernel⟩
    · exact ⟨_, 2, rfl, (eofStatus_eq_some_iff _ _ _).mp (by decide +kernel)⟩
    · exact List.forall_mem_singleton.mpr (.inl ⟨[some (bytesOf "1")], rfl, by decide +kernel⟩)
    · exact .eof 2 ((eofStatus_eq_some_iff _ _ _).mp (by decide +kernel)) (by decide)
  have hserve : admission ∅ sampleTurn.command = .serve .ordinary := by decide +kernel
  refine ⟨service, (conversation_passed_on _ _ [sampleTurn] [] rfl (.cons _ _ _ (fun _ => ?_) (.nil _))
    (by simp [Session.start]) rfl rfl).1⟩
  exact ⟨.ordinary, some 2, hserve, hresponse, by simp [sampleTurn, Numbered, samplePacket]⟩

end Faultline.MySQL
