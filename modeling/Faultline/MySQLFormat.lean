import Faultline.MySQLWire

/-! The packets that the protocol defines, independently of the code that reads them,
and what that code makes of them: `lenenc`, `okStatus` and `eofStatus` decode exactly
the encodings given here. -/
namespace Faultline.MySQL

inductive Lenenc : ℕ → Bytes → Prop where
  | one (v : ℕ) (h : v < 251) : Lenenc v [UInt8.ofNat v]
  | two (v : ℕ) (h : v < 256^2) : Lenenc v (0xfc :: putLE 2 v)
  | three (v : ℕ) (h : v < 256^3) : Lenenc v (0xfd :: putLE 3 v)
  | eight (v : ℕ) (h : v < 256^8) : Lenenc v (0xfe :: putLE 8 v)

/-- An OK packet with the given header: affected rows, last insert ID, status,
warnings and anything after them. -/
def IsOK (header : UInt8) (body : Bytes) (status : ℕ) : Prop :=
  ∃ rows id warnings ea ei info, Lenenc rows ea ∧ Lenenc id ei ∧ status < 256^2 ∧ warnings < 256^2 ∧
    body = header :: (ea ++ (ei ++ (putLE 2 status ++ (putLE 2 warnings ++ info))))

def IsEOF (modern : Bool) (body : Bytes) (status : ℕ) : Prop :=
  if modern then IsOK 0xfe body status
  else status < 256^2 ∧ ∃ warnings, warnings < 256^2 ∧ body = 0xfe :: (putLE 2 warnings ++ putLE 2 status)

theorem lenencWidth_eq_one (b : UInt8) (h : b.toNat < 251) : lenencWidth b = 1 ∧ b ≠ 0xfb ∧ b ≠ 0xff := by
  have hne (c : UInt8) (hc : 251 ≤ c.toNat) : b ≠ c := by
    rintro rfl
    omega
  refine ⟨?_, hne _ (by decide), hne _ (by decide)⟩
  unfold lenencWidth
  rw [if_neg (hne _ (by decide)), if_neg (hne _ (by decide)), if_neg (hne _ (by decide))]

theorem toNat_lt_of_ne (b : UInt8) (hb : b ≠ 0xfb) (hc : b ≠ 0xfc) (hd : b ≠ 0xfd) (he : b ≠ 0xfe)
    (hf : b ≠ 0xff) : b.toNat < 251 := by
  have hlt := b.toNat_lt
  have hne (c : UInt8) (h : b ≠ c) : b.toNat ≠ c.toNat := fun hh => h (UInt8.toNat_inj.mp hh)
  have h1 : b.toNat ≠ 251 := hne _ hb
  have h2 : b.toNat ≠ 252 := hne _ hc
  have h3 : b.toNat ≠ 253 := hne _ hd
  have h4 : b.toNat ≠ 254 := hne _ he
  have h5 : b.toNat ≠ 255 := hne _ hf
  omega

theorem lenenc_wide (first : UInt8) (w : ℕ) (hw : lenencWidth first = w+1) (hpos : 0 < w)
    (hne : first ≠ 0xfb ∧ first ≠ 0xff) (v : ℕ) (hv : v < 256^w) (rest : Bytes) :
    lenenc (first :: putLE w v ++ rest) = some (v, w+1) := by
  rw [List.cons_append, lenenc, if_neg (not_or.mpr hne), if_neg (by omega), if_neg (by simp; omega), hw,
    Nat.add_sub_cancel, List.take_append_of_le_length (by simp), List.take_of_length_le (by simp), leNat_putLE,
    Nat.mod_eq_of_lt hv]

theorem lenenc_append (v : ℕ) (e rest : Bytes) (h : Lenenc v e) :
    lenenc (e ++ rest) = some (v, e.length) := by
  cases h with
  | one h =>
    have hv : (UInt8.ofNat v).toNat = v := by
      rw [UInt8.toNat_ofNat']
      omega
    obtain ⟨hw, hne⟩ := lenencWidth_eq_one (UInt8.ofNat v) (by omega)
    simp only [List.cons_append, List.nil_append, lenenc, if_neg (not_or.mpr hne), hw, if_true, hv,
      List.length_singleton]
  | two h => simpa using lenenc_wide 0xfc 2 (by decide) (by decide) (by decide) v h rest
  | three h => simpa using lenenc_wide 0xfd 3 (by decide) (by decide) (by decide) v h rest
  | eight h => simpa using lenenc_wide 0xfe 8 (by decide) (by decide) (by decide) v h rest

theorem take_eq_putLE (s : Bytes) (w : ℕ) (h : w ≤ s.length) :
    s = putLE w (leNat (s.take w)) ++ s.drop w ∧ leNat (s.take w) < 256^w := by
  have hlen : (s.take w).length = w := List.length_take_of_le h
  have hput := putLE_leNat (s.take w)
  have hlt := leNat_lt (s.take w)
  rw [hlen] at hput hlt
  exact ⟨by rw [hput, List.take_append_drop], hlt⟩

theorem lenenc_some (b : Bytes) (v n : ℕ) (h : lenenc b = some (v, n)) :
    ∃ e rest, b = e ++ rest ∧ e.length = n ∧ Lenenc v e := by
  cases b with
  | nil => cases h
  | cons first rest =>
    rw [lenenc] at h
    split_ifs at h with hbad hone hshort
    · rw [not_or] at hbad
      obtain ⟨rfl, rfl⟩ := Prod.mk.injEq .. ▸ Option.some.inj h
      have hlt : first.toNat < 251 := by
        apply toNat_lt_of_ne first hbad.1 _ _ _ hbad.2
        all_goals
          rintro rfl
          revert hone
          decide
      have he := Lenenc.one first.toNat hlt
      rw [UInt8.ofNat_toNat] at he
      exact ⟨[first], rest, rfl, rfl, he⟩
    · obtain ⟨rfl, rfl⟩ := Prod.mk.injEq .. ▸ Option.some.inj h
      have hw (w : ℕ) (hw : lenencWidth first = w+1) : rest = putLE w (leNat (rest.take w)) ++ rest.drop w ∧
          leNat (rest.take w) < 256^w := take_eq_putLE rest w (by omega)
      by_cases hc : first = 0xfc
      · subst hc
        obtain ⟨hrest, hlt⟩ := hw 2 rfl
        exact ⟨_, rest.drop 2, congrArg (List.cons _) hrest, by simp [lenencWidth], Lenenc.two _ hlt⟩
      by_cases hd : first = 0xfd
      · subst hd
        obtain ⟨hrest, hlt⟩ := hw 3 rfl
        exact ⟨_, rest.drop 3, congrArg (List.cons _) hrest, by simp [lenencWidth], Lenenc.three _ hlt⟩
      by_cases he : first = 0xfe
      · subst he
        obtain ⟨hrest, hlt⟩ := hw 8 rfl
        exact ⟨_, rest.drop 8, congrArg (List.cons _) hrest, by simp [lenencWidth], Lenenc.eight _ hlt⟩
      · exact absurd (by simp [lenencWidth, hc, hd, he]) hone

theorem Lenenc.length_pos {v : ℕ} {e : Bytes} (h : Lenenc v e) : 0 < e.length := by
  cases h <;> simp

theorem uint16At_append (a b : Bytes) (v : ℕ) (h : v < 256^2) :
    uint16At (a ++ (putLE 2 v ++ b)) a.length = v := by
  rw [uint16At, List.drop_left, List.take_append_of_le_length (by simp),
    List.take_of_length_le (by simp), leNat_putLE, Nat.mod_eq_of_lt h]

theorem okStatus_of_isOK (header : UInt8) (hheader : header = 0 ∨ header = 0xfe) (body : Bytes)
    (status : ℕ) (h : IsOK header body status) : okStatus body = some status := by
  obtain ⟨rows, id, warnings, ea, ei, info, ha, hi, hs, hw, rfl⟩ := h
  have hea := ha.length_pos
  have hei := hi.length_pos
  have hdrop : (header :: (ea ++ (ei ++ (putLE 2 status ++ (putLE 2 warnings ++ info))))).drop
      (1+ea.length) = ei ++ (putLE 2 status ++ (putLE 2 warnings ++ info)) := by
    rw [Nat.add_comm, List.drop_succ_cons, List.drop_left]
  have hword := uint16At_append (header :: (ea ++ ei)) (putLE 2 warnings ++ info) status hs
  rw [List.length_cons, List.length_append, List.cons_append, List.append_assoc] at hword
  unfold okStatus
  rw [if_neg (by simp; rcases hheader with rfl | rfl <;> simp <;> omega)]
  simp only [List.drop_succ_cons, List.drop_zero, lenenc_append rows ea _ ha, hdrop,
    lenenc_append id ei _ hi]
  rw [Nat.add_comm, ← Nat.add_assoc] at hword
  rw [if_neg (by simp; omega), hword]

theorem isOK_of_okStatus (body : Bytes) (status : ℕ) (h : okStatus body = some status) :
    ∃ header, (header = 0 ∨ header = 0xfe) ∧ IsOK header body status := by
  unfold okStatus at h
  split_ifs at h with hbad
  cases body with
  | nil => simp at hbad
  | cons header t =>
    have hheader : header = 0 ∨ header = 0xfe := by
      simp only [List.head?_cons, ne_eq, Option.some.injEq] at hbad
      tauto
    refine ⟨header, hheader, ?_⟩
    simp only [List.drop_succ_cons, List.drop_zero] at h
    split at h
    · cases h
    rename_i rows n hrows
    obtain ⟨ea, r, rfl, rfl, ha⟩ := lenenc_some t rows n hrows
    rw [Nat.add_comm 1, List.drop_succ_cons, List.drop_left] at h
    split at h
    · cases h
    rename_i id m hid
    obtain ⟨ei, q, rfl, rfl, hi⟩ := lenenc_some r id m hid
    split_ifs at h with hshort
    have hq : 4 ≤ q.length := by
      simp at hshort
      omega
    obtain ⟨hq1, hs⟩ := take_eq_putLE q 2 (by omega)
    obtain ⟨hq2, hw⟩ := take_eq_putLE (q.drop 2) 2 (by simp; omega)
    have hstatus : status = leNat (q.take 2) := by
      have hdrop : (header :: (ea ++ (ei ++ q))).drop (ea.length + 1 + ei.length) = q := by
        rw [Nat.add_right_comm, List.drop_succ_cons, ← List.append_assoc, List.drop_left' (by simp)]
      rw [← Option.some.inj h, uint16At, hdrop]
    subst hstatus
    exact ⟨rows, id, _, ea, ei, _, ha, hi, hs, hw, by rw [← hq2, ← hq1]⟩

theorem IsOK.head {header : UInt8} {body : Bytes} {status : ℕ} (h : IsOK header body status) :
    body.head? = some header := by
  obtain ⟨_, _, _, _, _, _, _, _, _, _, rfl⟩ := h
  rfl

theorem okStatus_eq_some_iff_of_head (body : Bytes) (header : UInt8) (status : ℕ)
    (hhead : body.head? = some header) (hheader : header = 0 ∨ header = 0xfe) :
    okStatus body = some status ↔ IsOK header body status := by
  constructor
  · intro h
    obtain ⟨header', -, hok⟩ := isOK_of_okStatus body status h
    rw [hok.head] at hhead
    cases hhead
    exact hok
  · exact okStatus_of_isOK header hheader body status

theorem eofStatus_eq_some_iff (body : Bytes) (modern : Bool) (status : ℕ) :
    eofStatus body modern = some status ↔ IsEOF modern body status := by
  unfold eofStatus IsEOF
  by_cases hhead : body.head? = some 0xfe
  · rw [if_neg (not_not.mpr hhead)]
    cases modern with
    | true => simpa using okStatus_eq_some_iff_of_head body 0xfe status hhead (.inr rfl)
    | false =>
      obtain ⟨t, rfl⟩ := List.head?_eq_some_iff.mp hhead
      simp only [Bool.false_eq_true, if_false, List.length_cons]
      constructor
      · intro h
        split_ifs at h with hlen
        rw [not_not] at hlen
        obtain ⟨h1, hw⟩ := take_eq_putLE t 2 (by omega)
        obtain ⟨h2, hs⟩ := take_eq_putLE (t.drop 2) 2 (by simp; omega)
        have hnil : (t.drop 2).drop 2 = [] := by
          apply List.drop_eq_nil_of_le
          simp
          omega
        have hstatus : status = leNat ((t.drop 2).take 2) := by
          rw [← Option.some.inj h, uint16At, List.drop_succ_cons]
        subst hstatus
        refine ⟨hs, _, hw, ?_⟩
        rw [hnil, List.append_nil] at h2
        rw [← h2, ← h1]
      · rintro ⟨hs, warnings, hw, ht⟩
        have hlen : t.length + 1 = 5 := by
          have := congrArg List.length ht
          simpa using this
        rw [if_neg (not_not.mpr hlen), ht]
        have hword := uint16At_append (0xfe :: putLE 2 warnings) [] status hs
        simpa using hword
  · rw [if_pos hhead]
    simp only [reduceCtorEq, false_iff]
    intro h
    apply hhead
    split_ifs at h
    · exact h.head
    · obtain ⟨-, _, -, rfl⟩ := h
      rfl

end Faultline.MySQL
