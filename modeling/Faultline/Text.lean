import Mathlib

/-! Text as the Go standard library cuts, folds and prints it. Searching for a
single separator is the same on the bytes of a string and on its characters, so
`cut` and `cutLast` are stated once for any alphabet. -/
namespace Faultline

abbrev Bytes := List UInt8

def bytesOf (s : String) : Bytes := s.toByteArray.data.toList

theorem bytesOf_injective : Function.Injective bytesOf := by
  intro s t h
  apply String.toByteArray_inj.mp
  apply ByteArray.ext
  exact Array.toList_inj.mp h

section Cut
variable {α : Type} [DecidableEq α]

/-- `strings.Cut` at a one-element separator: what stands before the first
separator, and what follows it when there is one. -/
def cut (sep : α) : List α → List α × Option (List α)
  | [] => ([], none)
  | c :: s => if c = sep then ([], some s) else (c :: (cut sep s).1, (cut sep s).2)

def cutLast (sep : α) (s : List α) : Option (List α × List α) :=
  (cut sep s.reverse).2.map (fun b => (b.reverse, (cut sep s.reverse).1.reverse))

theorem cut_of_notMem (sep : α) (s : List α) (h : sep ∉ s) : cut sep s = (s, none) := by
  induction s with
  | nil => rfl
  | cons c s ih =>
    obtain ⟨hc, hs⟩ := not_or.mp (fun hh => h (List.mem_cons.mpr hh))
    simp only [cut, if_neg (Ne.symm hc), ih hs]

theorem cut_append (sep : α) (a b : List α) (h : sep ∉ a) :
    cut sep (a ++ sep :: b) = (a, some b) := by
  induction a with
  | nil => simp [cut]
  | cons c a ih =>
    obtain ⟨hc, ha⟩ := not_or.mp (fun hh => h (List.mem_cons.mpr hh))
    simp only [List.cons_append, cut, if_neg (Ne.symm hc), ih ha]

theorem cut_fst_notMem (sep : α) (s : List α) : sep ∉ (cut sep s).1 := by
  induction s with
  | nil => simp [cut]
  | cons c s ih =>
    unfold cut
    split_ifs with hc
    · simp
    · simpa [Ne.symm hc] using ih

theorem cut_some (sep : α) (s a b : List α) (h : cut sep s = (a, some b)) :
    s = a ++ sep :: b := by
  induction s generalizing a with
  | nil => simp [cut] at h
  | cons c s ih =>
    unfold cut at h
    split_ifs at h with hc
    · obtain ⟨rfl, hb⟩ := Prod.mk.injEq .. ▸ h
      cases hb
      rw [hc, List.nil_append]
    · obtain ⟨rfl, hb⟩ := Prod.mk.injEq .. ▸ h
      rw [List.cons_append, ← ih _ (Prod.ext rfl hb)]

theorem cut_none (sep : α) (s : List α) (h : (cut sep s).2 = none) : cut sep s = (s, none) := by
  refine cut_of_notMem sep s (fun hmem => ?_)
  obtain ⟨a, b, hs, ha⟩ := List.eq_append_cons_of_mem hmem
  rw [hs, cut_append sep a b ha] at h
  cases h

theorem cutLast_append (sep : α) (a b : List α) (h : sep ∉ b) :
    cutLast sep (a ++ sep :: b) = some (a, b) := by
  have hrev : (a ++ sep :: b).reverse = b.reverse ++ sep :: a.reverse := by simp
  have hcut := cut_append sep b.reverse a.reverse (by simpa using h)
  simp only [cutLast, hrev, hcut, Option.map_some, List.reverse_reverse]

theorem cutLast_some (sep : α) (s a b : List α) (h : cutLast sep s = some (a, b)) :
    s = a ++ sep :: b := by
  obtain ⟨r, hr, hab⟩ := Option.map_eq_some_iff.mp h
  obtain ⟨rfl, rfl⟩ := Prod.mk.injEq .. ▸ hab
  have hs := cut_some sep s.reverse _ r (Prod.ext rfl hr)
  have hrev := congrArg List.reverse hs
  simpa using hrev

theorem cutLast_of_notMem (sep : α) (s : List α) (h : sep ∉ s) : cutLast sep s = none := by
  simp only [cutLast, cut_of_notMem sep s.reverse (by simpa using h), Option.map_none]

end Cut

/-- `strings.ToLower` on ASCII text, the only text it is applied to: header
names and host names are checked to be ASCII before they are folded. -/
def lower (s : List Char) : List Char := s.map Char.toLower

theorem char_ascii (P : Char → Prop) (hlow : ∀ n : Fin 128, P (Char.ofNat n))
    (hhigh : ∀ c : Char, 128 ≤ c.toNat → P c) (c : Char) : P c := by
  rcases lt_or_ge c.toNat 128 with h | h
  · simpa [Char.ofNat_toNat] using hlow ⟨c.toNat, h⟩
  · exact hhigh c h

theorem not_le_ascii (c a : Char) (hc : 128 ≤ c.toNat) (ha : a.toNat < 128) : ¬ c ≤ a := by
  intro h
  have hle : c.toNat ≤ a.toNat := UInt32.le_iff_toNat_le.mp h
  omega

theorem ne_ascii (c a : Char) (hc : 128 ≤ c.toNat) (ha : a.toNat < 128) : c ≠ a := by
  intro h
  exact not_le_ascii c a hc ha (le_of_eq h)

theorem isDigit_ascii (c : Char) (hc : 128 ≤ c.toNat) : c.isDigit = false := by
  have h9 : '9'.toNat = 57 := rfl
  simp only [Bool.eq_false_iff, ne_eq, Char.isDigit_iff_toNat]
  omega

theorem toLower_of_ge (c : Char) (h : 128 ≤ c.toNat) : c.toLower = c := by
  unfold Char.toLower
  rw [dif_neg]
  rintro ⟨_, h2⟩
  have hz : c.toNat ≤ 'Z'.toNat := UInt32.le_iff_toNat_le.mp h2
  have h90 : 'Z'.toNat = 90 := rfl
  omega

/-- Folding fixes every ASCII character that is no capital, and reaches none of
them from another character. -/
theorem toLower_eq_iff (c : Char) (a : Char)
    (ha : ∀ n : Fin 128, (Char.ofNat n).toLower = a ↔ Char.ofNat n = a) :
    c.toLower = a ↔ c = a := by
  refine char_ascii (fun c => c.toLower = a ↔ c = a) ha (fun c h => ?_) c
  rw [toLower_of_ge c h]

theorem isDigit_toLower (c : Char) : c.toLower.isDigit = c.isDigit := by
  refine char_ascii (fun c => c.toLower.isDigit = c.isDigit) (by decide) (fun c h => ?_) c
  rw [toLower_of_ge c h]

theorem mem_lower_iff (s : List Char) (a : Char)
    (ha : ∀ n : Fin 128, (Char.ofNat n).toLower = a ↔ Char.ofNat n = a) :
    a ∈ lower s ↔ a ∈ s := by
  simp only [lower, List.mem_map, toLower_eq_iff _ a ha, exists_eq_right]

theorem lower_idem (s : List Char) : lower (lower s) = lower s := by
  simp [lower]

@[simp] theorem lower_eq_nil (s : List Char) : lower s = [] ↔ s = [] := List.map_eq_nil_iff

@[simp] theorem length_lower (s : List Char) : (lower s).length = s.length := List.length_map _

@[simp] theorem lower_cons (c : Char) (s : List Char) : lower (c :: s) = c.toLower :: lower s := rfl

def itoa (n : ℤ) : List Char := (if n < 0 then ['-'] else []) ++ Nat.toDigits 10 n.natAbs

/-- `strconv.Atoi`: an optional sign and decimal digits whose value fits an `int`. -/
def atoi (s : List Char) : Option ℤ :=
  let digits := if s.head? = some '-' ∨ s.head? = some '+' then s.tail else s
  let v : ℤ := if s.head? = some '-' then -(Nat.ofDigitChars 10 digits 0 : ℤ)
    else Nat.ofDigitChars 10 digits 0
  if digits = [] ∨ ¬ digits.all Char.isDigit then none
  else if -2^63 ≤ v ∧ v < 2^63 then some v else none

theorem itoa_digits (n : ℤ) (h : 0 ≤ n) : ∀ c ∈ itoa n, c.isDigit := by
  intro c hc
  rw [itoa, if_neg (not_lt.mpr h), List.nil_append] at hc
  exact Nat.isDigit_of_mem_toDigits (by decide) (by decide) hc

theorem atoi_itoa (n : ℤ) (h0 : 0 ≤ n) (h : n < 2^63) : atoi (itoa n) = some n := by
  have hd := itoa_digits n h0
  have hi : itoa n = Nat.toDigits 10 n.natAbs := by
    rw [itoa, if_neg (not_lt.mpr h0), List.nil_append]
  have hne : itoa n ≠ [] := hi ▸ Nat.toDigits_ne_nil
  have hhead (c : Char) (hc : ¬ c.isDigit) : (itoa n).head? ≠ some c := fun hh =>
    hc (hd c (List.mem_of_mem_head? hh))
  have hval : ((Nat.ofDigitChars 10 (itoa n) 0 : ℕ) : ℤ) = n := by
    rw [hi, Nat.ofDigitChars_ten_toDigits]
    exact Int.natAbs_of_nonneg h0
  have hall : (itoa n).all Char.isDigit = true := List.all_eq_true.mpr hd
  unfold atoi
  simp only [hhead '-' (by decide), hhead '+' (by decide), or_self, if_false, hval, hne, hall,
    not_true_eq_false, h, and_true]
  rw [if_pos (by omega)]

end Faultline
