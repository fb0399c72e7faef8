import Faultline.Bounds
import Faultline.MySQLFormat

/-! The decoding of length-encoded integers and status words as the code does it: with machine words,
and with reads that would fail outside of the packet. -/
namespace Faultline.MySQL
namespace Checked

/-- The loop of `lenenc` over the bytes that are left, from `i` on. -/
def lenencLoop (b : Bytes) : ℕ → ℕ → UInt64 → Option UInt64
  | 0, _, v => some v
  | k+1, i, v => do
    let c ← byteAt b i
    lenencLoop b k (i+1) (v ||| c.toUInt64 <<< UInt64.ofNat ((i-1)*8))

def lenenc (b : Bytes) : Option (Option (UInt64 × ℕ)) :=
  if b.length = 0 then return none
  else do
    let first ← byteAt b 0
    if first = 0xfb ∨ first = 0xff then return none
    else if lenencWidth first = 1 then return some (first.toUInt64, 1)
    else if b.length < lenencWidth first then return none
    else
      let v ← lenencLoop b (lenencWidth first - 1) 1 0
      return some (v, lenencWidth first)

def okStatus (b : Bytes) : Option (Option ℕ) :=
  if b.length < 7 then return none
  else do
    let first ← byteAt b 0
    if first ≠ 0 ∧ first ≠ 0xfe then return none
    else
      match ← lenenc (← sliceFrom b 1) with
      | none => return none
      | some (_, n) =>
        match ← lenenc (← sliceFrom b (1+n)) with
        | none => return none
        | some (_, m) =>
          if b.length < 1+n+m+4 then return none
          else return some (← littleEndian 2 (← sliceFrom b (1+n+m)))

def eofStatus (b : Bytes) (modern : Bool) : Option (Option ℕ) :=
  if b.length = 0 then return none
  else do
    let first ← byteAt b 0
    if first ≠ 0xfe then return none
    else if modern then okStatus b
    else if b.length ≠ 5 then return none
    else return some (← littleEndian 2 (← sliceFrom b 3))

end Checked

theorem or_shift_toNat (v : UInt64) (c : UInt8) (s : ℕ) (hs : s < 57) (hv : v.toNat < 2^s) :
    (v ||| c.toUInt64 <<< UInt64.ofNat s).toNat = v.toNat + c.toNat * 2^s := by
  have hc := c.toNat_lt
  have hshift : (c.toUInt64 <<< UInt64.ofNat s).toNat = c.toNat <<< s := by
    have hbound : c.toNat * 2^s < 2^64 := by
      calc
        c.toNat * 2^s < 2^8 * 2^s := Nat.mul_lt_mul_of_pos_right hc (Nat.two_pow_pos s)
        _ = 2^(8+s) := (pow_add 2 8 s).symm
        _ ≤ 2^64 := Nat.pow_le_pow_right (by decide) (by omega)
    rw [UInt64.toNat_shiftLeft, UInt64.toNat_ofNat', UInt8.toNat_toUInt64, Nat.mod_eq_of_lt (a := s) (by omega),
      Nat.mod_eq_of_lt (a := s) (by omega), Nat.shiftLeft_eq, Nat.mod_eq_of_lt hbound]
  rw [UInt64.toNat_or, hshift, Nat.or_comm, ← Nat.shiftLeft_add_eq_or_of_lt hv, Nat.shiftLeft_eq]
  omega

theorem leNat_concat (s : Bytes) (c : UInt8) : leNat (s ++ [c]) = leNat s + c.toNat * 256^s.length := by
  induction s with
  | nil => simp [leNat]
  | cons d s ih =>
    rw [List.cons_append, leNat, leNat, ih, List.length_cons, pow_succ]
    ring

theorem lenencLoop_eq (first : UInt8) (rest : Bytes) (k i : ℕ) (v : UInt64) (hwidth : i + k ≤ 8)
    (hlen : i + k ≤ rest.length) (hv : v.toNat = leNat (rest.take i)) :
    Checked.lenencLoop (first :: rest) k (i+1) v = some (UInt64.ofNat (leNat (rest.take (i+k)))) := by
  induction k generalizing i v with
  | zero =>
    rw [Checked.lenencLoop, Nat.add_zero, ← hv, UInt64.ofNat_toNat]
  | succ k ih =>
    have hi : i < rest.length := by omega
    have hlt : v.toNat < 2^(i*8) := by
      have hbound := leNat_lt (rest.take i)
      rw [List.length_take_of_le (by omega)] at hbound
      rw [hv, Nat.mul_comm, pow_mul]
      exact hbound
    have hbyte : byteAt (first :: rest) (i+1) = some rest[i] := by
      rw [byteAt, List.getElem?_cons_succ, List.getElem?_eq_getElem hi]
    rw [Checked.lenencLoop, hbyte]
    change Checked.lenencLoop (first :: rest) k (i+1+1) (v ||| rest[i].toUInt64 <<< UInt64.ofNat ((i+1-1)*8)) = _
    rw [Nat.add_sub_cancel, ih (i+1) _ (by omega) (by omega), Nat.add_assoc, Nat.add_comm 1 k]
    rw [or_shift_toNat v _ (i*8) (by omega) hlt, hv, List.take_add_one, List.getElem?_eq_getElem hi,
      Option.toList_some, leNat_concat, List.length_take_of_le (by omega), Nat.mul_comm i 8, pow_mul]
    rfl

def asWord (r : ℕ × ℕ) : UInt64 × ℕ := (UInt64.ofNat r.1, r.2)

theorem lenencWidth_le (first : UInt8) : 1 ≤ lenencWidth first ∧ lenencWidth first ≤ 9 := by
  unfold lenencWidth
  split_ifs <;> decide

theorem checked_lenenc (b : Bytes) : Checked.lenenc b = some ((lenenc b).map asWord) := by
  cases b with
  | nil => rfl
  | cons first rest =>
    have hwidth := lenencWidth_le first
    have hbyte : first.toUInt64 = UInt64.ofNat first.toNat := by
      have hlt := first.toNat_lt
      apply UInt64.toNat_inj.mp
      rw [UInt8.toNat_toUInt64, UInt64.toNat_ofNat', Nat.mod_eq_of_lt (by omega)]
    rw [Checked.lenenc, if_neg (by simp), byteAt_zero, lenenc]
    change (if first = 0xfb ∨ first = 0xff then _ else _) = _
    by_cases hbad : first = 0xfb ∨ first = 0xff
    · rw [if_pos hbad, if_pos hbad]
      rfl
    rw [if_neg hbad, if_neg hbad]
    by_cases hone : lenencWidth first = 1
    · rw [if_pos hone, if_pos hone, Option.map_some, asWord, ← hbyte]
      rfl
    rw [if_neg hone, if_neg hone, List.length_cons]
    by_cases hshort : rest.length + 1 < lenencWidth first
    · rw [if_pos hshort, if_pos hshort]
      rfl
    rw [if_neg hshort, if_neg hshort]
    have hloop := lenencLoop_eq first rest (lenencWidth first - 1) 0 0 (by omega) (by omega) rfl
    rw [Nat.zero_add, Nat.zero_add] at hloop
    rw [hloop]
    rfl

theorem lenenc_length (b : Bytes) (v n : ℕ) (h : lenenc b = some (v, n)) : n ≤ b.length := by
  obtain ⟨e, rest, rfl, rfl, -⟩ := lenenc_some b v n h
  rw [List.length_append]
  omega

theorem checked_okStatus (b : Bytes) : Checked.okStatus b = some (okStatus b) := by
  rw [Checked.okStatus, okStatus]
  by_cases hlen : b.length < 7
  · rw [if_pos hlen, if_pos (Or.inl hlen)]
    rfl
  obtain ⟨first, rest, rfl⟩ := List.exists_cons_of_ne_nil (List.ne_nil_of_length_pos (by omega : 0 < b.length))
  rw [if_neg hlen, byteAt_zero, Option.bind_eq_bind, Option.bind_some]
  by_cases hheader : first ≠ 0 ∧ first ≠ 0xfe
  · rw [if_pos hheader, if_pos (Or.inr (by simpa using hheader))]
    rfl
  rw [if_neg hheader, if_neg (by simp only [List.head?_cons, ne_eq, Option.some.injEq]; tauto),
    sliceFrom_eq _ 1 (by simp)]
  simp only [Option.bind_eq_bind, Option.bind_some, checked_lenenc]
  cases hrows : lenenc ((first :: rest).drop 1) with
  | none => rfl
  | some r =>
    obtain ⟨rows, n⟩ := r
    have hn := lenenc_length _ rows n hrows
    rw [List.length_drop] at hn
    simp only [Option.map_some, asWord]
    rw [sliceFrom_eq _ (1+n) (by omega)]
    simp only [Option.bind_some]
    cases hid : lenenc ((first :: rest).drop (1+n)) with
    | none => rfl
    | some r =>
      obtain ⟨id, m⟩ := r
      simp only [Option.map_some, asWord]
      by_cases hshort : (first :: rest).length < 1+n+m+4
      · rw [if_pos hshort, if_pos hshort]
        rfl
      · rw [if_neg hshort, if_neg hshort, sliceFrom_eq _ (1+n+m) (by omega), Option.bind_some,
          littleEndian_eq 2 _ (by rw [List.length_drop]; omega)]
        rfl

theorem checked_eofStatus (b : Bytes) (modern : Bool) : Checked.eofStatus b modern = some (eofStatus b modern) := by
  cases b with
  | nil => rfl
  | cons first rest =>
    rw [Checked.eofStatus, if_neg (by simp), byteAt_zero, Option.bind_eq_bind, Option.bind_some, eofStatus,
      List.head?_cons]
    by_cases hheader : first = 0xfe
    · rw [if_neg (not_not.mpr hheader), if_neg (not_not.mpr (congrArg some hheader))]
      cases modern with
      | true =>
        rw [if_pos rfl, if_pos rfl]
        exact checked_okStatus (first :: rest)
      | false =>
        simp only [Bool.false_eq_true, if_false]
        by_cases hlen : (first :: rest).length ≠ 5
        · rw [if_pos hlen, if_pos hlen]
          rfl
        · rw [if_neg hlen, if_neg hlen, sliceFrom_eq _ 3 (by omega), Option.bind_eq_bind, Option.bind_some,
            littleEndian_eq 2 _ (by rw [List.length_drop]; omega)]
          rfl
    · rw [if_pos hheader, if_pos (fun h => hheader (Option.some.inj h))]
      rfl

/-! What is decoded, and what is not. -/

def okBytes (header : UInt8) (rows id : Bytes) (status warnings : ℕ) : Bytes :=
  header :: (rows ++ (id ++ (putLE 2 status ++ putLE 2 warnings)))

theorem lenenc_unique (v w : ℕ) (e f r s : Bytes) (he : Lenenc v e) (hf : Lenenc w f)
    (h : e ++ r = f ++ s) : e = f ∧ r = s := by
  have hlen := lenenc_append v e r he
  rw [h, lenenc_append w f s hf, Option.some.injEq, Prod.mk.injEq] at hlen
  exact List.append_inj h hlen.2.symm

theorem okStatus_cut (header : UInt8) (rows id : ℕ) (ea ei : Bytes) (status warnings : ℕ) (ha : Lenenc rows ea)
    (hi : Lenenc id ei) (b rest : Bytes) (hb : okBytes header ea ei status warnings = b ++ rest)
    (hrest : rest ≠ []) : okStatus b = none := by
  cases hstatus : okStatus b with
  | none => rfl
  | some status' =>
    obtain ⟨header', -, rows', id', warnings', ea', ei', info, ha', hi', -, -, rfl⟩ :=
      isOK_of_okStatus b status' hstatus
    simp only [okBytes, List.cons_append, List.append_assoc] at hb
    obtain ⟨-, hbody⟩ := List.cons.inj hb
    obtain ⟨rfl, hafter⟩ := lenenc_unique _ _ _ _ _ _ ha ha' hbody
    obtain ⟨rfl, hwords⟩ := lenenc_unique _ _ _ _ _ _ hi hi' hafter
    have hlen := congrArg List.length hwords
    simp only [List.length_append, length_putLE] at hlen
    have hpos := List.length_pos_of_ne_nil hrest
    omega

theorem lenenc_bad (b : Bytes) (h : b.head? = some 0xfb ∨ b.head? = some 0xff) : lenenc b = none := by
  cases b with
  | nil => rfl
  | cons first rest =>
    rw [lenenc, if_pos]
    simpa using h

theorem okStatus_bad_header (b : Bytes) (h : b.head? ≠ some 0 ∧ b.head? ≠ some 0xfe) : okStatus b = none := by
  rw [okStatus, if_pos (Or.inr h)]

theorem okStatus_bad_rows (header : UInt8) (b : Bytes) (h : b.head? = some 0xfb ∨ b.head? = some 0xff) :
    okStatus (header :: b) = none := by
  rw [okStatus, List.drop_succ_cons, List.drop_zero, lenenc_bad b h]
  split <;> rfl

theorem okStatus_bad_id (header : UInt8) (rows : ℕ) (ea b : Bytes) (ha : Lenenc rows ea)
    (h : b.head? = some 0xfb ∨ b.head? = some 0xff) : okStatus (header :: (ea ++ b)) = none := by
  have hdrop : (header :: (ea ++ b)).drop (1 + ea.length) = b := by
    rw [Nat.add_comm, List.drop_succ_cons, List.drop_left]
  rw [okStatus, List.drop_succ_cons, List.drop_zero, lenenc_append rows ea b ha]
  simp only [hdrop, lenenc_bad b h]
  split <;> rfl

structure StatusLaw : Prop where
  /-- Every number of 64 bits has an encoding, and each of its encodings is read with its length. -/
  encoded : ∀ v < 2^64, ∃ e, Lenenc v e
  integer : ∀ v e rest, Lenenc v e → Checked.lenenc (e ++ rest) = some (some (UInt64.ofNat v, e.length))
  /-- The status of an OK packet is its status word. -/
  status : ∀ header, header = 0 ∨ header = 0xfe → ∀ rows id ea ei, Lenenc rows ea → Lenenc id ei →
    ∀ status < 2^16, ∀ warnings < 2^16, ∀ info,
      okStatus (okBytes header ea ei status warnings ++ info) = some status
  cut : ∀ header rows id ea ei, Lenenc rows ea → Lenenc id ei → ∀ status < 2^16, ∀ warnings < 2^16,
    ∀ b rest, okBytes header ea ei status warnings = b ++ rest → rest ≠ [] → okStatus b = none
  header : ∀ b, b.head? ≠ some 0 ∧ b.head? ≠ some 0xfe → okStatus b = none
  /-- A first byte 0xfb or 0xff is no integer. -/
  rows : ∀ header b, b.head? = some 0xfb ∨ b.head? = some 0xff → okStatus (header :: b) = none
  id : ∀ header rows ea b, Lenenc rows ea → b.head? = some 0xfb ∨ b.head? = some 0xff →
    okStatus (header :: (ea ++ b)) = none
  /-- No read fails: the decoders that check each of them return what the plain ones return. -/
  lenencReads : ∀ b, Checked.lenenc b = some ((lenenc b).map asWord)
  okReads : ∀ b, Checked.okStatus b = some (okStatus b)
  eofReads : ∀ b modern, Checked.eofStatus b modern = some (eofStatus b modern)

theorem status_law : StatusLaw := by
  refine ⟨?_, ?_, ?_, ?_, okStatus_bad_header, okStatus_bad_rows, okStatus_bad_id, checked_lenenc,
    checked_okStatus, checked_eofStatus⟩
  · intro v hv
    exact ⟨_, Lenenc.eight v (by omega)⟩
  · intro v e rest h
    rw [checked_lenenc, lenenc_append v e rest h]
    rfl
  · intro header hheader rows id ea ei ha hi status hs warnings hw info
    apply okStatus_of_isOK header hheader
    refine ⟨rows, id, warnings, ea, ei, info, ha, hi, by omega, by omega, ?_⟩
    simp only [okBytes, List.cons_append, List.append_assoc]
  · intro header rows id ea ei ha hi status _ warnings _ b rest hb hrest
    exact okStatus_cut header rows id ea ei status warnings ha hi b rest hb hrest

end Faultline.MySQL
