import Mathlib.Data.List.Nodup
import Mathlib.Tactic

/-! Maps that remember the order in which their keys were first set, as the maps of a scripting
language do. -/
namespace Faultline

structure InsertionMap (κ ν : Type) [DecidableEq κ] where
  entries : List (κ × ν)
  nodup : (entries.map Prod.fst).Nodup

namespace InsertionMap
variable {κ ν : Type} [DecidableEq κ]

/-- A new value takes the place of the old one; a new key comes last. -/
def setEntry (k : κ) (v : ν) : List (κ × ν) → List (κ × ν)
  | [] => [(k, v)]
  | e :: l => if e.1 = k then (k, v) :: l else e :: setEntry k v l

theorem keys_setEntry (k : κ) (v : ν) (l : List (κ × ν)) : (setEntry k v l).map Prod.fst =
    if k ∈ l.map Prod.fst then l.map Prod.fst else l.map Prod.fst ++ [k] := by
  induction l with
  | nil => rfl
  | cons e l ih =>
    unfold setEntry
    by_cases he : e.1 = k
    · simp [he]
    · rw [if_neg he, List.map_cons, ih, List.map_cons]
      by_cases hk : k ∈ l.map Prod.fst
      · rw [if_pos hk, if_pos (List.mem_cons_of_mem _ hk)]
      · have hnot : k ∉ e.1 :: l.map Prod.fst := by
          rw [List.mem_cons, not_or]
          exact ⟨Ne.symm he, hk⟩
        rw [if_neg hk, if_neg hnot, List.cons_append]

theorem nodup_setEntry (k : κ) (v : ν) (l : List (κ × ν)) (h : (l.map Prod.fst).Nodup) :
    ((setEntry k v l).map Prod.fst).Nodup := by
  rw [keys_setEntry]
  split
  · exact h
  · next hk => exact List.nodup_append.mpr ⟨h, List.nodup_singleton k, by
      intro a ha b hb hab
      rw [List.mem_singleton.mp hb] at hab
      exact hk (hab ▸ ha)⟩

def empty : InsertionMap κ ν := ⟨[], List.nodup_nil⟩

def set (m : InsertionMap κ ν) (k : κ) (v : ν) : InsertionMap κ ν :=
  ⟨setEntry k v m.entries, nodup_setEntry k v m.entries m.nodup⟩

def get? (m : InsertionMap κ ν) (k : κ) : Option ν := m.entries.lookup k

def keys (m : InsertionMap κ ν) : List κ := m.entries.map Prod.fst

@[simp] theorem get?_empty (k : κ) : (empty : InsertionMap κ ν).get? k = none := rfl

theorem get?_set (m : InsertionMap κ ν) (k j : κ) (v : ν) :
    (m.set k v).get? j = if j = k then some v else m.get? j := by
  obtain ⟨l, hl⟩ := m
  simp only [get?, set]
  clear hl
  induction l with
  | nil =>
    rw [setEntry, List.lookup_cons]
    by_cases hj : j = k
    · simp [hj]
    · simp [hj, beq_false_of_ne hj]
  | cons e l ih =>
    unfold setEntry
    by_cases he : e.1 = k
    · rw [if_pos he, List.lookup_cons, List.lookup_cons, he]
      by_cases hj : j = k
      · simp [hj]
      · simp [hj, beq_false_of_ne hj]
    · rw [if_neg he, List.lookup_cons, List.lookup_cons, ih]
      by_cases hj : j = k
      · have hne : (j == e.1) = false := by
          rw [hj]
          exact beq_false_of_ne (Ne.symm he)
        rw [hne, if_pos hj]
      · simp [hj]

theorem mem_keys_iff (m : InsertionMap κ ν) (k : κ) : k ∈ m.keys ↔ (m.get? k).isSome = true := by
  obtain ⟨l, hl⟩ := m
  simp only [get?, keys]
  clear hl
  induction l with
  | nil => simp
  | cons e l ih =>
    rw [List.map_cons, List.mem_cons, List.lookup_cons, ih]
    by_cases hk : k = e.1
    · simp [hk]
    · have hne : (k == e.1) = false := by simpa using hk
      simp [hk, hne]

end InsertionMap

end Faultline
