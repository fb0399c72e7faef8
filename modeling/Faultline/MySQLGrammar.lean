import Faultline.MySQLWire
import Faultline.Spelling

/-! The statements that `classify` tells apart. The contract of the adapter gives their grammar in
ASCII; the code compares runes with the letters and the spaces of Unicode. -/
namespace Faultline.MySQL

def normalized (sql : Bytes) : List ℕ :=
  joinFields (trimSpace (trimSemicolon ((trimSpace (runes sql)).map toUpper)))

def phrases : Statement → List (List (List ℕ))
  | .begin => [[keyword "BEGIN"], [keyword "BEGIN", keyword "WORK"], [keyword "START", keyword "TRANSACTION"]]
  | .commit => [[keyword "COMMIT"], [keyword "COMMIT", keyword "WORK"]]
  | .rollback => [[keyword "ROLLBACK"], [keyword "ROLLBACK", keyword "WORK"]]
  | _ => []

def boundaries : List Statement := [.begin, .commit, .rollback]

/-! The grammar of the code. -/

def UnicodeGrammar (k : Statement) (sql : Bytes) : Prop :=
  ∃ ws ∈ phrases k, Spells isSpace toUpper 59 ws (runes sql)

theorem phrase_texts : (phrases .begin).map [32].intercalate = ["BEGIN", "BEGIN WORK", "START TRANSACTION"].map keyword ∧
    (phrases .commit).map [32].intercalate = ["COMMIT", "COMMIT WORK"].map keyword ∧
    (phrases .rollback).map [32].intercalate = ["ROLLBACK", "ROLLBACK WORK"].map keyword := by
  decide +kernel

theorem phrase_disjoint : ∀ k ∈ boundaries, ∀ k' ∈ boundaries, ∀ s ∈ (phrases k).map [32].intercalate,
    s ∈ (phrases k').map [32].intercalate → k = k' := by
  decide +kernel

theorem classify_cases (sql : Bytes) :
    (∃ k ∈ boundaries, classify sql = k ∧ normalized sql ∈ (phrases k).map [32].intercalate) ∨
      (classify sql ∉ boundaries ∧ ∀ k ∈ boundaries, normalized sql ∉ (phrases k).map [32].intercalate) := by
  obtain ⟨hbegin, hcommit, hrollback⟩ := phrase_texts
  have hclass : classify sql =
      if normalized sql ∈ ["BEGIN", "BEGIN WORK", "START TRANSACTION"].map keyword then .begin
      else if normalized sql ∈ ["COMMIT", "COMMIT WORK"].map keyword then .commit
      else if normalized sql ∈ ["ROLLBACK", "ROLLBACK WORK"].map keyword then .rollback
      else if (["CALL ", "XA ", "PREPARE ", "EXECUTE ", "LOAD DATA "].map keyword).any
        (·.isPrefixOf (normalized sql)) then .unsupported
      else .ordinary := rfl
  have hnone (h1 : normalized sql ∉ (phrases .begin).map [32].intercalate)
      (h2 : normalized sql ∉ (phrases .commit).map [32].intercalate)
      (h3 : normalized sql ∉ (phrases .rollback).map [32].intercalate) :
      ∀ k ∈ boundaries, normalized sql ∉ (phrases k).map [32].intercalate := by
    intro k hk
    simp only [boundaries, List.mem_cons, List.not_mem_nil, or_false] at hk
    rcases hk with rfl | rfl | rfl
    · exact h1
    · exact h2
    · exact h3
  rw [hclass, ← hbegin, ← hcommit, ← hrollback]
  split_ifs with h1 h2 h3 h4
  · exact Or.inl ⟨.begin, by decide, rfl, h1⟩
  · exact Or.inl ⟨.commit, by decide, rfl, h2⟩
  · exact Or.inl ⟨.rollback, by decide, rfl, h3⟩
  · exact Or.inr ⟨by decide, hnone h1 h2 h3⟩
  · exact Or.inr ⟨by decide, hnone h1 h2 h3⟩

theorem classify_eq_iff (sql : Bytes) (k : Statement) (hk : k ∈ boundaries) :
    classify sql = k ↔ normalized sql ∈ (phrases k).map [32].intercalate := by
  rcases classify_cases sql with ⟨k', hk', hclass, hmem⟩ | ⟨hclass, hnone⟩
  · rw [hclass]
    constructor
    · rintro rfl
      exact hmem
    · exact phrase_disjoint k' hk' k hk _ hmem
  · constructor
    · rintro rfl
      exact absurd hk hclass
    · intro hmem
      exact absurd hmem (hnone k hk)

theorem isSpace_toUpper (r : ℕ) : isSpace (toUpper r) = isSpace r := by
  unfold toUpper
  split_ifs with h1 h2 h3
  · have hsmall (n : ℕ) (hlow : 33 ≤ n) (hhigh : n < 128) : isSpace n = false := by
      simp only [isSpace, Bool.or_eq_false_iff, Bool.and_eq_false_iff, decide_eq_false_iff_not]
      omega
    rw [hsmall _ (by omega) (by omega), hsmall _ (by omega) (by omega)]
  · rw [h2]
    rfl
  · rw [h3]
    rfl
  · rfl

theorem toUpper_eq_semicolon (r : ℕ) : toUpper r = 59 ↔ r = 59 := by
  unfold toUpper
  split_ifs with h1 h2 h3
  · omega
  · omega
  · omega
  · rfl

theorem phrase_words : ∀ k ∈ boundaries, ∀ ws ∈ phrases k, ws ≠ [] ∧ [32].intercalate ws ≠ [] ∧
    ∀ w ∈ ws, w ≠ [] ∧ (∀ c ∈ w, isSpace c = false ∧ c < 128) ∧ 59 ∉ w := by
  decide +kernel

theorem normalized_eq_iff (k : Statement) (hk : k ∈ boundaries) (ws : List (List ℕ)) (hws : ws ∈ phrases k)
    (x : List ℕ) : joinFields x = [32].intercalate ws ↔ fields isSpace x = ws := by
  obtain ⟨hne, htext, hwords⟩ := phrase_words k hk ws hws
  constructor
  · intro h
    have hfields : fields isSpace x ≠ [] := by
      intro hnil
      change [32].intercalate (fields isSpace x) = _ at h
      rw [hnil] at h
      exact htext h.symm
    apply intercalate_words 32 _ _ hfields hne ?_ ?_ h
    · intro w hw hmem
      exact absurd (mem_fields x w hw 32 hmem) (by decide)
    · intro w hw hmem
      exact absurd ((hwords w hw).2.1 32 hmem).1 (by decide)
  · intro h
    rw [← h]
    rfl

theorem classify_unicode (sql : Bytes) (k : Statement) (hk : k ∈ boundaries) :
    classify sql = k ↔ UnicodeGrammar k sql := by
  have htrim : (trimSpace (runes sql)).map toUpper = trim isSpace ((runes sql).map toUpper) :=
    (trim_map toUpper isSpace isSpace_toUpper (runes sql)).symm
  have hspells (ws : List (List ℕ)) (hws : ws ∈ phrases k) :
      normalized sql = [32].intercalate ws ↔ Spells isSpace toUpper 59 ws (runes sql) := by
    obtain ⟨hne, -, hwords⟩ := phrase_words k hk ws hws
    rw [normalized, normalized_eq_iff k hk ws hws, htrim]
    calc
      _ ↔ Spells isSpace id 59 ws ((runes sql).map toUpper) :=
        fields_trim_iff 59 (by decide) ws hne
          (fun w hw => ⟨(hwords w hw).1, fun c hc => ((hwords w hw).2.1 c hc).1, (hwords w hw).2.2⟩) _
      _ ↔ _ := spells_map_iff 59 59 ws (runes sql) (fun c _ => isSpace_toUpper c) (fun _ _ => rfl)
        (fun c _ => toUpper_eq_semicolon c)
  rw [classify_eq_iff sql k hk, List.mem_map]
  constructor
  · rintro ⟨ws, hws, heq⟩
    exact ⟨ws, hws, (hspells ws hws).mp heq.symm⟩
  · rintro ⟨ws, hws, h⟩
    exact ⟨ws, hws, ((hspells ws hws).mpr h).symm⟩

/-! The grammar of the contract. -/

def asciiSpace (b : UInt8) : Bool := (9 ≤ b.toNat && b.toNat ≤ 13) || b.toNat = 32

def asciiUpper (b : UInt8) : ℕ := if 97 ≤ b.toNat ∧ b.toNat ≤ 122 then b.toNat - 32 else b.toNat

/-- The words in any case of ASCII letters, with ASCII spaces and at most one semicolon. -/
def Grammar (k : Statement) (sql : Bytes) : Prop :=
  ∃ ws ∈ phrases k, Spells asciiSpace asciiUpper 59 ws sql

theorem runes_ascii (sql : Bytes) (h : ∀ b ∈ sql, b.toNat < 128) : runes sql = sql.map UInt8.toNat := by
  unfold runes
  induction sql with
  | nil => rfl
  | cons b sql ih =>
    have hdecode : decodeRune b sql = (b.toNat, 1) := if_pos (h b List.mem_cons_self)
    rw [runesFrom, hdecode, List.map_cons, ← ih (fun c hc => h c (List.mem_cons_of_mem _ hc))]
    rfl

theorem grammar_ascii (k : Statement) (hk : k ∈ boundaries) (sql : Bytes) (h : Grammar k sql) :
    ∀ b ∈ sql, b.toNat < 128 := by
  obtain ⟨ws, hws, hspells⟩ := h
  intro b hb
  rcases spells_symbols _ _ _ _ _ hspells b hb with hspace | rfl | ⟨w, hw, hmem⟩
  · simp only [asciiSpace, Bool.or_eq_true, Bool.and_eq_true, decide_eq_true_eq] at hspace
    omega
  · decide
  · have hlt := (((phrase_words k hk ws hws).2.2 w hw).2.1 _ hmem).2
    unfold asciiUpper at hlt
    split_ifs at hlt with hcase
    · omega
    · exact hlt

theorem grammar_iff_unicode (k : Statement) (sql : Bytes) (h : ∀ b ∈ sql, b.toNat < 128) :
    UnicodeGrammar k sql ↔ Grammar k sql := by
  have hspells (ws : List (List ℕ)) :
      Spells isSpace toUpper 59 ws (sql.map UInt8.toNat) ↔ Spells asciiSpace asciiUpper 59 ws sql := by
    apply spells_map_iff
    · intro b hb
      have hlt := h b hb
      simp only [isSpace, asciiSpace]
      rw [Bool.eq_iff_iff]
      simp only [Bool.or_eq_true, Bool.and_eq_true, decide_eq_true_eq]
      omega
    · intro b hb
      have hlt := h b hb
      unfold toUpper asciiUpper
      split_ifs
      all_goals omega
    · intro b _
      exact ⟨fun heq => UInt8.toNat_inj.mp heq, fun heq => by rw [heq]; rfl⟩
  unfold UnicodeGrammar Grammar
  rw [runes_ascii sql h]
  simp only [hspells]

/-- The code recognises exactly the grammar of the contract on a statement that is ASCII or that no
reading of its runes makes one of the phrases; on any other statement it does not. -/
theorem classify_grammar (sql : Bytes) :
    (∀ k ∈ boundaries, classify sql = k ↔ Grammar k sql) ↔
      (∀ b ∈ sql, b.toNat < 128) ∨ ∀ k ∈ boundaries, ¬UnicodeGrammar k sql := by
  constructor
  · intro h
    by_cases hascii : ∀ b ∈ sql, b.toNat < 128
    · exact Or.inl hascii
    · right
      intro k hk hunicode
      have hclass := (classify_unicode sql k hk).mpr hunicode
      exact hascii (grammar_ascii k hk sql ((h k hk).mp hclass))
  · intro h k hk
    rw [classify_unicode sql k hk]
    rcases h with hascii | hnone
    · exact grammar_iff_unicode k sql hascii
    · constructor
      · intro hunicode
        exact absurd hunicode (hnone k hk)
      · intro hgrammar
        have hascii := grammar_ascii k hk sql hgrammar
        exact absurd ((grammar_iff_unicode k sql hascii).mpr hgrammar) (hnone k hk)

/-- A commit written with a dotless i. -/
theorem dotless_commit : classify (bytesOf "commıt") = .commit ∧ ¬Grammar .commit (bytesOf "commıt") := by
  refine ⟨by decide +kernel, ?_⟩
  intro h
  have hascii := grammar_ascii .commit (by decide) _ h
  exact absurd hascii (by decide +kernel)

end Faultline.MySQL
