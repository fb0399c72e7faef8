import Faultline.Text

/-! Texts that a separator divides into segments, and encodings that keep separators apart. -/
namespace Faultline
variable {α β : Type} [DecidableEq α] [DecidableEq β]

theorem splitOn_cut (sep : α) (s : List α) :
    s.splitOn sep = (cut sep s).1 :: ((cut sep s).2.elim [] (fun rest => rest.splitOn sep)) := by
  induction s with
  | nil => rfl
  | cons c s ih =>
    rw [List.splitOn_cons_eq_if_modifyHead]
    by_cases hc : c = sep
    · simp [cut, hc]
    · simp only [cut, hc, beq_iff_eq, if_false]
      rw [ih]
      rfl

theorem splitOn_notMem (sep : α) (s : List α) : ∀ e ∈ s.splitOn sep, sep ∉ e := by
  induction s with
  | nil => simp
  | cons c s ih =>
    rw [List.splitOn_cons_eq_if_modifyHead]
    by_cases hc : c = sep
    · simpa [hc] using ih
    · simp only [beq_iff_eq, if_neg hc]
      cases hsplit : s.splitOn sep with
      | nil => simp
      | cons e es =>
        rw [hsplit] at ih
        intro d hd
        rcases List.mem_cons.mp hd with rfl | hd
        · simpa [Ne.symm hc] using ih e List.mem_cons_self
        · exact ih d (List.mem_cons_of_mem e hd)

theorem mem_splitOn (sep : α) (s : List α) (c : α) (hc : c ∈ s) :
    c = sep ∨ ∃ e ∈ s.splitOn sep, c ∈ e := by
  induction s with
  | nil => cases hc
  | cons d s ih =>
    rw [List.splitOn_cons_eq_if_modifyHead]
    by_cases hd : d = sep
    · rcases List.mem_cons.mp hc with rfl | hc
      · exact .inl hd
      · refine (ih hc).imp_right ?_
        rintro ⟨e, he, hce⟩
        exact ⟨e, by simp [hd, he], hce⟩
    · simp only [beq_iff_eq, if_neg hd]
      cases hsplit : s.splitOn sep with
      | nil => exact absurd hsplit (List.splitOn_ne_nil _ _)
      | cons e es =>
        rcases List.mem_cons.mp hc with rfl | hc
        · exact .inr ⟨c :: e, by simp, by simp⟩
        · refine (ih hc).imp_right ?_
          rintro ⟨e', he', hce⟩
          rw [hsplit] at he'
          rcases List.mem_cons.mp he' with rfl | he'
          · exact ⟨d :: e', by simp, List.mem_cons_of_mem d hce⟩
          · exact ⟨e', by simp [he'], hce⟩

theorem mem_of_mem_splitOn (sep : α) (s e : List α) (he : e ∈ s.splitOn sep) (c : α) (hc : c ∈ e) : c ∈ s := by
  induction s generalizing e with
  | nil =>
    rw [List.splitOn_nil, List.mem_singleton] at he
    simp [he] at hc
  | cons d s ih =>
    rw [List.splitOn_cons_eq_if_modifyHead] at he
    by_cases hd : d = sep
    · simp only [hd, beq_self_eq_true, if_true] at he
      rcases List.mem_cons.mp he with rfl | he
      · cases hc
      · exact List.mem_cons_of_mem d (ih e he hc)
    · simp only [beq_iff_eq, if_neg hd] at he
      cases hsplit : s.splitOn sep with
      | nil => exact absurd hsplit (List.splitOn_ne_nil _ _)
      | cons e' es =>
        rw [hsplit] at he ih
        rcases List.mem_cons.mp he with rfl | he
        · rcases List.mem_cons.mp hc with rfl | hc
          · exact List.mem_cons_self
          · exact List.mem_cons_of_mem d (ih e' List.mem_cons_self hc)
        · exact List.mem_cons_of_mem d (ih e (List.mem_cons_of_mem e' he) hc)

theorem splitOn_of_notMem (sep : α) (s : List α) (h : sep ∉ s) : s.splitOn sep = [s] := by
  rw [splitOn_cut, cut_of_notMem sep s h]
  rfl

theorem splitOn_of_mem (sep : α) (s : List α) (h : sep ∈ s) :
    ∃ e es, s.splitOn sep = e :: es ∧ es ≠ [] := by
  obtain ⟨a, b, rfl, ha⟩ := List.eq_append_cons_of_mem h
  refine ⟨a, b.splitOn sep, ?_, List.splitOn_ne_nil sep b⟩
  rw [splitOn_cut, cut_append sep a b ha]
  rfl

theorem splitOn_append (sep : α) (a b : List α) (h : sep ∉ a) :
    (a ++ b).splitOn sep = (b.splitOn sep).modifyHead (a ++ ·) := by
  induction a with
  | nil =>
    rw [List.nil_append]
    cases b.splitOn sep <;> rfl
  | cons c a ih =>
    obtain ⟨hc, ha⟩ := not_or.mp (fun hh => h (List.mem_cons.mpr hh))
    rw [List.cons_append, List.splitOn_cons_eq_if_modifyHead, ih ha]
    simp only [beq_iff_eq, if_neg (Ne.symm hc), List.modifyHead_modifyHead]
    rfl

/-- Where two texts meet, the last segment of the one and the first of the other become one. -/
theorem splitOn_join (sep : α) (x y a b : List α) (as bs : List (List α))
    (hx : x.splitOn sep = as ++ [a]) (hy : y.splitOn sep = b :: bs) :
    (x ++ y).splitOn sep = as ++ (a ++ b) :: bs := by
  induction x generalizing as a with
  | nil =>
    obtain ⟨rfl, rfl⟩ : as = [] ∧ a = [] := by
      rw [List.splitOn_nil] at hx
      cases as with
      | nil => exact ⟨rfl, (List.singleton_inj.mp hx).symm⟩
      | cons e es => simp at hx
    exact hy
  | cons c x ih =>
    rw [List.cons_append, List.splitOn_cons_eq_if_modifyHead]
    rw [List.splitOn_cons_eq_if_modifyHead] at hx
    obtain ⟨as', a', hx'⟩ : ∃ as' a', x.splitOn sep = as' ++ [a'] :=
      ⟨_, _, (List.dropLast_append_getLast (List.splitOn_ne_nil sep x)).symm⟩
    rw [ih _ _ hx']
    rw [hx'] at hx
    by_cases hc : c = sep
    · simp only [hc, beq_self_eq_true, if_true] at hx ⊢
      obtain ⟨rfl, rfl⟩ : [] :: as' = as ∧ a' = a := by
        rw [← List.cons_append] at hx
        have happ := List.append_inj' hx rfl
        exact ⟨happ.1, List.singleton_inj.mp happ.2⟩
      rfl
    · simp only [beq_iff_eq, if_neg hc] at hx ⊢
      cases as' with
      | nil =>
        obtain ⟨rfl, rfl⟩ : [] = as ∧ c :: a' = a := by
          have heq : [] ++ [c :: a'] = as ++ [a] := hx
          have happ := List.append_inj' heq rfl
          exact ⟨happ.1, List.singleton_inj.mp happ.2⟩
        rfl
      | cons e es =>
        obtain ⟨rfl, rfl⟩ : (c :: e) :: es = as ∧ a' = a := by
          have heq : (c :: e) :: es ++ [a'] = as ++ [a] := hx
          have happ := List.append_inj' heq rfl
          exact ⟨happ.1, List.singleton_inj.mp happ.2⟩
        rfl

theorem last_segment_eq_nil (sep : α) (x a : List α) (as : List (List α)) (hx : x.splitOn sep = as ++ [a])
    (hne : x ≠ []) : a = [] ↔ x.getLast? = some sep := by
  obtain ⟨x', c, rfl⟩ : ∃ x' c, x = x' ++ [c] := ⟨_, _, (List.dropLast_append_getLast hne).symm⟩
  obtain ⟨as', a', hx'⟩ : ∃ as' a', x'.splitOn sep = as' ++ [a'] :=
    ⟨_, _, (List.dropLast_append_getLast (List.splitOn_ne_nil sep x')).symm⟩
  rw [List.getLast?_concat, Option.some.injEq]
  by_cases hc : c = sep
  · have hjoin := splitOn_join sep x' [c] a' [] as' [[]] hx' (by simp [hc, List.splitOn_cons_eq_if_modifyHead])
    have heq : as ++ [a] = as' ++ [a' ++ []] ++ [[]] := by
      rw [← hx, hjoin, List.append_assoc]
      rfl
    have hlast := List.singleton_inj.mp (List.append_inj' heq rfl).2
    simp [hlast, hc]
  · have hjoin := splitOn_join sep x' [c] a' [c] as' [] hx'
      (by simp [hc, List.splitOn_cons_eq_if_modifyHead])
    rw [hx] at hjoin
    have hlast := List.singleton_inj.mp (List.append_inj' hjoin rfl).2
    simp [hlast, hc]

/-- An encoding of characters one by one, in which the code of the separator is an element that
stands in no other code, encodes the segments one by one. -/
theorem splitOn_flatMap (f : α → List β) (sep : α) (sep' : β) (hsep : f sep = [sep'])
    (hf : ∀ c, c ≠ sep → sep' ∉ f c) (s : List α) :
    (s.flatMap f).splitOn sep' = (s.splitOn sep).map (·.flatMap f) := by
  induction s with
  | nil => rfl
  | cons c s ih =>
    rw [List.flatMap_cons, List.splitOn_cons_eq_if_modifyHead]
    by_cases hc : c = sep
    · rw [hc, hsep, List.singleton_append, List.splitOn_cons_eq_if_modifyHead, ih]
      simp
    · rw [splitOn_append sep' _ _ (hf c hc), ih]
      simp only [beq_iff_eq, if_neg hc]
      cases s.splitOn sep <;> rfl

theorem bytesOf_ofList (s : List Char) : bytesOf (String.ofList s) = s.flatMap String.utf8EncodeChar := by
  unfold bytesOf
  rw [String.toByteArray_ofList]
  simp [List.utf8Encode]

theorem utf8EncodeChar_ascii (c : Char) (hc : c.toNat < 128) :
    String.utf8EncodeChar c = [UInt8.ofNat c.toNat] := by
  have hle : c.val.toNat ≤ 127 := Nat.le_of_lt_succ hc
  simp only [String.utf8EncodeChar, if_pos hle]
  rfl

theorem le_of_mem_utf8EncodeChar (c : Char) (hc : 128 ≤ c.toNat) :
    ∀ b ∈ String.utf8EncodeChar c, 128 ≤ b.toNat := by
  have hne : ¬ c.val.toNat ≤ 127 := not_le.mpr hc
  have hbyte (n : ℕ) (hlo : 128 ≤ n) (hhi : n < 256) : 128 ≤ (UInt8.ofNat n).toNat := by
    rw [UInt8.toNat_ofNat']
    omega
  intro b hb
  simp only [String.utf8EncodeChar, if_neg hne] at hb
  split_ifs at hb
  all_goals
    simp only [List.mem_cons, List.not_mem_nil, or_false] at hb
    rcases hb with rfl | rfl | rfl | rfl <;> exact hbyte _ (by omega) (by omega)

theorem mem_utf8EncodeChar_iff (a c : Char) (ha : a.toNat < 128) :
    UInt8.ofNat a.toNat ∈ String.utf8EncodeChar c ↔ c = a := by
  constructor
  · intro hmem
    rcases lt_or_ge c.toNat 128 with hlt | hge
    · rw [utf8EncodeChar_ascii c hlt, List.mem_singleton] at hmem
      have hnat := congrArg UInt8.toNat hmem
      rw [UInt8.toNat_ofNat', UInt8.toNat_ofNat', Nat.mod_eq_of_lt (by omega),
        Nat.mod_eq_of_lt (by omega)] at hnat
      rw [← Char.ofNat_toNat c, ← hnat, Char.ofNat_toNat]
    · have hle := le_of_mem_utf8EncodeChar c hge _ hmem
      rw [UInt8.toNat_ofNat'] at hle
      omega
  · rintro rfl
    rw [utf8EncodeChar_ascii c ha]
    exact List.mem_singleton_self _

end Faultline
