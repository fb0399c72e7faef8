import Mathlib.Data.List.Basic
import Mathlib.Data.List.Nodup
import Mathlib.Data.List.Count
import Mathlib.Tactic

/-! The pairing of rules in the review of a draft (`pairRules` of `diff.js`). A rule keeps its partner
when its identifier is unambiguous on both sides; every other rule is shown alone. -/
namespace Faultline.Review

/-- An entry of the review. A position of `-1` stands for a missing side. -/
structure Pair (α : Type*) where
  before : Option α
  after : Option α
  oldIndex : ℤ
  newIndex : ℤ
deriving DecidableEq

variable {α κ : Type*} [DecidableEq κ] (ID : α → κ)

def unique (rules : List α) (id : κ) : Bool :=
  (rules.filter (fun rule => ID rule = id)).length = 1

/-- `findIndex`: the first position, or `-1`. -/
def findIndex (rules : List α) (id : κ) : ℤ :=
  match rules.findIdx? (fun r => ID r = id) with
  | some i => i
  | none => -1

/-- The position of the partner of a rule of `before`. -/
def next (before after : List α) (rule : α) : ℤ :=
  if unique ID before (ID rule) && unique ID after (ID rule) then findIndex ID after (ID rule) else -1

def oldPair (before after : List α) (rule : α) (index : ℕ) : Pair α :=
  ⟨some rule, if next ID before after rule ≥ 0 then after[(next ID before after rule).toNat]? else none,
    index, next ID before after rule⟩

def used (before after : List α) : List ℤ :=
  (before.map (next ID before after)).filter (· ≥ 0)

def pairRules (before after : List α) : List (Pair α) :=
  before.zipIdx.map (fun (rule, index) => oldPair ID before after rule index) ++
    (after.zipIdx.filter (fun (_, index) => (index : ℤ) ∉ used ID before after)).map
      (fun (rule, index) => ⟨none, some rule, -1, index⟩)

/-- `id` occurs exactly once in both lists. -/
def Unambiguous (before after : List α) (id : κ) : Prop :=
  (before.map ID).count id = 1 ∧ (after.map ID).count id = 1

inductive Shows (before after : List α) : Pair α → Prop
  | both (i j : ℕ) (a b : α) (hi : before[i]? = some a) (hj : after[j]? = some b) (hid : ID a = ID b)
      (hone : Unambiguous ID before after (ID a)) : Shows before after ⟨some a, some b, i, j⟩
  | removed (i : ℕ) (a : α) (hi : before[i]? = some a)
      (hnot : ¬Unambiguous ID before after (ID a)) : Shows before after ⟨some a, none, i, -1⟩
  | added (j : ℕ) (b : α) (hj : after[j]? = some b)
      (hnot : ¬Unambiguous ID before after (ID b)) : Shows before after ⟨none, some b, -1, j⟩

theorem unique_iff (rules : List α) (id : κ) : unique ID rules id = true ↔ (rules.map ID).count id = 1 := by
  have hcount : (rules.map ID).count id = (rules.filter (fun rule => ID rule = id)).length := by
    rw [List.count, List.countP_map, List.countP_eq_length_filter]
    rfl
  rw [hcount]
  simp only [unique, decide_eq_true_eq]

theorem findIndex_spec (rules : List α) (id : κ) (h : id ∈ rules.map ID) :
    ∃ (j : ℕ) (b : α), findIndex ID rules id = (j : ℤ) ∧ rules[j]? = some b ∧ ID b = id := by
  cases hfind : rules.findIdx? (fun r => ID r = id) with
  | none =>
    obtain ⟨b, hb, hid⟩ := List.mem_map.mp h
    have hnone := List.findIdx?_eq_none_iff.mp hfind b hb
    rw [hid] at hnone
    simp at hnone
  | some j =>
    obtain ⟨hlt, hid, -⟩ := List.findIdx?_eq_some_iff_getElem.mp hfind
    refine ⟨j, rules[j], ?_, List.getElem?_eq_getElem hlt, of_decide_eq_true hid⟩
    rw [findIndex, hfind]

variable (before after : List α)

theorem next_unambiguous (rule : α) (h : Unambiguous ID before after (ID rule)) :
    ∃ (j : ℕ) (b : α), next ID before after rule = (j : ℤ) ∧ after[j]? = some b ∧ ID b = ID rule := by
  have hmem : ID rule ∈ after.map ID := by
    apply List.count_pos_iff.mp
    rw [h.2]
    exact Nat.one_pos
  have hboth : (unique ID before (ID rule) && unique ID after (ID rule)) = true := by
    rw [Bool.and_eq_true, unique_iff, unique_iff]
    exact h
  rw [next, if_pos hboth]
  exact findIndex_spec ID after (ID rule) hmem

theorem next_ambiguous (rule : α) (h : ¬Unambiguous ID before after (ID rule)) :
    next ID before after rule = -1 := by
  apply if_neg
  rw [Bool.and_eq_true, unique_iff, unique_iff]
  exact h

theorem position_unique (rules : List α) (id : κ) (h : (rules.map ID).count id = 1) (i j : ℕ) (a b : α)
    (ha : rules[i]? = some a) (hb : rules[j]? = some b) (hia : ID a = id) (hib : ID b = id) : i = j := by
  have hone : ∀ k c, rules[k]? = some c → ID c = id → (rules.map ID).idxOf id = k := by
    intro k c hc hid
    obtain ⟨hlt, hget⟩ := List.getElem?_eq_some_iff.mp hc
    -- the identifier stands at `k`, so neither side of `k` can hold it again
    have hsplit : (rules.map ID) = (rules.take k).map ID ++ id :: (rules.drop (k+1)).map ID := by
      conv_lhs => rw [← List.take_append_drop k rules, List.drop_eq_getElem_cons hlt, hget]
      rw [List.map_append, List.map_cons, hid]
    have hleft : id ∉ (rules.take k).map ID := by
      rw [hsplit, List.count_append, List.count_cons_self] at h
      apply List.count_eq_zero.mp
      omega
    rw [hsplit, List.idxOf_append_of_notMem hleft, List.idxOf_cons_self]
    rw [List.length_map, List.length_take]
    omega
  rw [← hone i a ha hia, ← hone j b hb hib]

theorem next_eq_iff (rule b : α) (j : ℕ) (hj : after[j]? = some b) :
    next ID before after rule = (j : ℤ) ↔ ID rule = ID b ∧ Unambiguous ID before after (ID rule) := by
  by_cases h : Unambiguous ID before after (ID rule)
  · obtain ⟨j', b', hnext, hj', hid⟩ := next_unambiguous ID before after rule h
    rw [hnext]
    constructor
    · intro heq
      have hjj : j' = j := Int.ofNat_inj.mp heq
      rw [hjj, hj] at hj'
      rw [Option.some.inj hj']
      exact ⟨hid.symm, h⟩
    · rintro ⟨heq, -⟩
      have hjj := position_unique ID after (ID rule) h.2 j' j b' b hj' hj hid heq.symm
      rw [hjj]
  · rw [next_ambiguous ID before after rule h]
    constructor
    · intro heq
      omega
    · rintro ⟨-, hone⟩
      exact absurd hone h

theorem mem_used_iff (j : ℕ) (b : α) (hj : after[j]? = some b) :
    (j : ℤ) ∈ used ID before after ↔ Unambiguous ID before after (ID b) := by
  rw [used, List.mem_filter, List.mem_map]
  constructor
  · rintro ⟨⟨a, -, hnext⟩, -⟩
    obtain ⟨hid, hone⟩ := (next_eq_iff ID before after a b j hj).mp hnext
    exact hid ▸ hone
  · intro hone
    have hmem : ID b ∈ before.map ID := by
      apply List.count_pos_iff.mp
      rw [hone.1]
      exact Nat.one_pos
    obtain ⟨a, ha, hid⟩ := List.mem_map.mp hmem
    have hnext := (next_eq_iff ID before after a b j hj).mpr ⟨hid, hid ▸ hone⟩
    exact ⟨⟨a, ha, hnext⟩, by simp⟩

theorem oldPair_shows (rule : α) (index : ℕ) (hi : before[index]? = some rule) :
    Shows ID before after (oldPair ID before after rule index) := by
  by_cases h : Unambiguous ID before after (ID rule)
  · obtain ⟨j, b, hnext, hj, hid⟩ := next_unambiguous ID before after rule h
    have hpair : oldPair ID before after rule index = ⟨some rule, some b, index, j⟩ := by
      rw [oldPair, hnext, if_pos (Int.natCast_nonneg j), ← hj]
      rfl
    rw [hpair]
    exact Shows.both index j rule b hi hj hid.symm h
  · have hpair : oldPair ID before after rule index = ⟨some rule, none, index, -1⟩ := by
      rw [oldPair, next_ambiguous ID before after rule h]
      rfl
    rw [hpair]
    exact Shows.removed index rule hi h

theorem pairRules_shows : ∀ p ∈ pairRules ID before after, Shows ID before after p := by
  intro p hp
  rcases List.mem_append.mp hp with hold | hnew
  · obtain ⟨⟨rule, index⟩, hmem, rfl⟩ := List.mem_map.mp hold
    exact oldPair_shows ID before after rule index (List.mem_zipIdx_iff_getElem?.mp hmem)
  · obtain ⟨⟨rule, index⟩, hmem, rfl⟩ := List.mem_map.mp hnew
    obtain ⟨hzip, hunused⟩ := List.mem_filter.mp hmem
    have hj : after[index]? = some rule := List.mem_zipIdx_iff_getElem?.mp hzip
    refine Shows.added index rule hj ?_
    rw [← mem_used_iff ID before after index rule hj]
    exact of_decide_eq_true hunused

theorem count_positions (rules : List α) (i : ℕ) (a : α) (h : rules[i]? = some a) :
    (rules.zipIdx.map (fun p => (p.2 : ℤ))).count (i : ℤ) = 1 := by
  have hmap : rules.zipIdx.map (fun p => (p.2 : ℤ)) = (List.range' 0 rules.length).map Nat.cast := by
    rw [← List.zipIdx_map_snd 0 rules, List.map_map]
    rfl
  rw [hmap, List.count_map_of_injective _ _ Nat.cast_injective]
  apply List.count_eq_one_of_mem List.nodup_range'
  have hlt := (List.getElem?_eq_some_iff.mp h).1
  rw [List.mem_range'_1]
  omega

theorem count_next (j : ℕ) (b : α) (hj : after[j]? = some b) :
    (before.map (next ID before after)).count (j : ℤ) =
      if (j : ℤ) ∈ used ID before after then 1 else 0 := by
  have hpred : ∀ a ∈ before, next ID before after a = (j : ℤ) ↔
      ID a = ID b ∧ (j : ℤ) ∈ used ID before after := by
    intro a _
    rw [mem_used_iff ID before after j b hj]
    constructor
    · intro hnext
      obtain ⟨hid, hone⟩ := (next_eq_iff ID before after a b j hj).mp hnext
      exact ⟨hid, hid ▸ hone⟩
    · rintro ⟨hid, hone⟩
      exact (next_eq_iff ID before after a b j hj).mpr ⟨hid, hid ▸ hone⟩
  by_cases hused : (j : ℤ) ∈ used ID before after
  · have hone := (mem_used_iff ID before after j b hj).mp hused
    rw [if_pos hused, ← hone.1, List.count, List.count, List.countP_map, List.countP_map]
    apply List.countP_congr
    intro a ha
    simp only [Function.comp_apply, beq_iff_eq, hpred a ha, hused, and_true]
  · rw [if_neg hused, List.count_eq_zero, List.mem_map]
    rintro ⟨a, ha, hnext⟩
    exact hused ((hpred a ha).mp hnext).2

theorem count_unused (j : ℕ) (b : α) (hj : after[j]? = some b) :
    ((after.zipIdx.filter (fun (_, index) => (index : ℤ) ∉ used ID before after)).map
      (fun p => (p.2 : ℤ))).count (j : ℤ) = if (j : ℤ) ∈ used ID before after then 0 else 1 := by
  by_cases hused : (j : ℤ) ∈ used ID before after
  · rw [if_pos hused, List.count_eq_zero, List.mem_map]
    rintro ⟨⟨rule, index⟩, hmem, heq⟩
    have hunused := of_decide_eq_true (List.mem_filter.mp hmem).2
    exact hunused (heq ▸ hused)
  · -- filtering keeps every entry of position `j`
    rw [if_neg hused, ← count_positions after j b hj]
    simp only [List.count, List.countP_map, List.countP_filter]
    apply List.countP_congr
    rintro ⟨rule, index⟩ -
    simp only [Function.comp_apply, beq_iff_eq, Bool.and_eq_true, decide_eq_true_eq]
    constructor
    · intro h
      exact h.1
    · intro h
      exact ⟨h, h ▸ hused⟩

/-- The review of two lists of rules loses nothing, repeats nothing, and matches exactly the
unambiguous identifiers. -/
structure Complete (pairs : List (Pair α)) : Prop where
  old : ∀ (i : ℕ) (a : α), before[i]? = some a → (pairs.map Pair.oldIndex).count (i : ℤ) = 1
  new : ∀ (j : ℕ) (b : α), after[j]? = some b → (pairs.map Pair.newIndex).count (j : ℤ) = 1
  shows : ∀ p ∈ pairs, Shows ID before after p

theorem pairRules_complete : Complete ID before after (pairRules ID before after) := by
  refine ⟨?_, ?_, pairRules_shows ID before after⟩
  · intro i a hi
    have hnone (l : List (α × ℕ)) : (l.map (fun _ => (-1 : ℤ))).count (i : ℤ) = 0 := by
      rw [List.count_eq_zero, List.mem_map]
      rintro ⟨_, -, heq⟩
      omega
    rw [pairRules, List.map_append, List.count_append, List.map_map, List.map_map]
    change (before.zipIdx.map (fun p => (p.2 : ℤ))).count (i : ℤ) +
      (List.map (fun _ => (-1 : ℤ)) _).count (i : ℤ) = 1
    rw [hnone, count_positions before i a hi]
  · intro j b hj
    have hfst (f : α → ℤ) : before.zipIdx.map (fun p => f p.1) = before.map f := by
      conv_rhs => rw [← List.zipIdx_map_fst 0 before, List.map_map]
      rfl
    rw [pairRules, List.map_append, List.count_append, List.map_map, List.map_map]
    change (before.zipIdx.map (fun p => next ID before after p.1)).count (j : ℤ) +
      (List.map (fun p : α × ℕ => (p.2 : ℤ)) _).count (j : ℤ) = 1
    rw [hfst, count_next ID before after j b hj, count_unused ID before after j b hj]
    split <;> rfl

-- two rules swapped, one of an ambiguous identifier, one new
example : pairRules (fun n : ℕ => n % 10) [1, 2, 3, 13] [2, 11, 3, 4] =
    [⟨some 1, some 11, 0, 1⟩, ⟨some 2, some 2, 1, 0⟩, ⟨some 3, none, 2, -1⟩, ⟨some 13, none, 3, -1⟩,
      ⟨none, some 3, -1, 2⟩, ⟨none, some 4, -1, 3⟩] := by decide

end Faultline.Review
