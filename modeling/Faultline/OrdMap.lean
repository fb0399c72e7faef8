import Mathlib

/-! Finite maps with one representation for each set of bindings: the entries
are kept in strictly increasing key order, so two maps with the same lookups
are the same value and `=` can stand for the equality of two maps. -/
namespace Faultline

structure OrdMap (κ ν : Type) [LinearOrder κ] where
  entries : List (κ × ν)
  sorted : entries.Pairwise (fun a b => a.1 < b.1)
  deriving DecidableEq

namespace OrdMap
variable {κ ν : Type} [LinearOrder κ]

def insertEntry (k : κ) (v : ν) : List (κ × ν) → List (κ × ν)
  | [] => [(k, v)]
  | e :: l =>
    if k < e.1 then (k, v) :: e :: l
    else if k = e.1 then (k, v) :: l
    else e :: insertEntry k v l

theorem mem_insertEntry (k : κ) (v : ν) (l : List (κ × ν)) (a : κ × ν)
    (h : a ∈ insertEntry k v l) : a = (k, v) ∨ a ∈ l := by
  induction l with
  | nil => simpa [insertEntry] using h
  | cons e l ih =>
    unfold insertEntry at h
    split_ifs at h
    · simpa [or_assoc] using h
    · rcases List.mem_cons.mp h with h | h
      · exact Or.inl h
      · exact Or.inr (List.mem_cons_of_mem _ h)
    · rcases List.mem_cons.mp h with h | h
      · exact Or.inr (h ▸ List.mem_cons_self)
      · exact (ih h).imp id (List.mem_cons_of_mem _)

theorem insertEntry_sorted (k : κ) (v : ν) (l : List (κ × ν))
    (h : l.Pairwise (fun a b => a.1 < b.1)) :
    (insertEntry k v l).Pairwise (fun a b => a.1 < b.1) := by
  induction l with
  | nil => exact List.pairwise_singleton _ _
  | cons e l ih =>
    obtain ⟨he, hl⟩ := List.pairwise_cons.mp h
    unfold insertEntry
    split_ifs with hlt heq
    · refine List.pairwise_cons.mpr ⟨?_, h⟩
      intro a ha
      rcases List.mem_cons.mp ha with rfl | ha
      · exact hlt
      · exact hlt.trans (he a ha)
    · exact List.pairwise_cons.mpr ⟨fun a ha => heq ▸ he a ha, hl⟩
    · refine List.pairwise_cons.mpr ⟨?_, ih hl⟩
      intro a ha
      rcases mem_insertEntry k v l a ha with rfl | ha
      · exact lt_of_le_of_ne (not_lt.mp hlt) (Ne.symm heq)
      · exact he a ha

def empty : OrdMap κ ν := ⟨[], List.Pairwise.nil⟩

def insert (m : OrdMap κ ν) (k : κ) (v : ν) : OrdMap κ ν :=
  ⟨insertEntry k v m.entries, insertEntry_sorted k v _ m.sorted⟩

def erase (m : OrdMap κ ν) (k : κ) : OrdMap κ ν :=
  ⟨m.entries.filter (fun e => e.1 ≠ k), m.sorted.filter _⟩

def get? (m : OrdMap κ ν) (k : κ) : Option ν := (m.entries.find? (fun e => e.1 = k)).map (·.2)

def contains (m : OrdMap κ ν) (k : κ) : Bool := (m.get? k).isSome

def size (m : OrdMap κ ν) : ℕ := m.entries.length

instance : EmptyCollection (OrdMap κ ν) := ⟨empty⟩

@[simp] theorem get?_empty (k : κ) : (∅ : OrdMap κ ν).get? k = none := rfl

@[simp] theorem size_empty : (∅ : OrdMap κ ν).size = 0 := rfl

theorem get?_insert (m : OrdMap κ ν) (k j : κ) (v : ν) :
    (m.insert k v).get? j = if j = k then some v else m.get? j := by
  obtain ⟨l, hl⟩ := m
  simp only [get?, insert]
  clear hl
  induction l with
  | nil =>
    by_cases hj : j = k
    · simp [insertEntry, hj]
    · simp [insertEntry, hj, Ne.symm hj]
  | cons e l ih =>
    unfold insertEntry
    by_cases hj : j = k
    · subst hj
      rw [if_pos rfl] at ih ⊢
      by_cases hlt : j < e.1
      · simp [hlt]
      by_cases heq : j = e.1
      · simp [heq]
      · rw [if_neg hlt, if_neg heq, List.find?_cons_of_neg (by simpa using Ne.symm heq), ih]
    · rw [if_neg hj] at ih ⊢
      by_cases hlt : k < e.1
      · simp [hlt, Ne.symm hj]
      by_cases heq : k = e.1
      · simp [← heq, Ne.symm hj]
      · rw [if_neg hlt, if_neg heq]
        by_cases hej : e.1 = j
        · simp [hej]
        · rw [List.find?_cons_of_neg (by simpa using hej), ih,
            List.find?_cons_of_neg (by simpa using hej)]

theorem get?_erase (m : OrdMap κ ν) (k j : κ) :
    (m.erase k).get? j = if j = k then none else m.get? j := by
  obtain ⟨l, hl⟩ := m
  simp only [get?, erase, List.find?_filter]
  split_ifs with hj
  · subst hj
    rw [List.find?_eq_none.mpr (by simp), Option.map_none]
  · congr 2
    funext e
    by_cases he : e.1 = j <;> simp [he, hj]

theorem get?_eq_some_iff (m : OrdMap κ ν) (k : κ) (v : ν) :
    m.get? k = some v ↔ (k, v) ∈ m.entries := by
  obtain ⟨l, hl⟩ := m
  simp only [get?]
  induction l with
  | nil => simp
  | cons e l ih =>
    obtain ⟨he, hl'⟩ := List.pairwise_cons.mp hl
    by_cases hek : e.1 = k
    · constructor
      · intro h
        obtain rfl : e.2 = v := by simpa [hek] using h
        exact List.mem_cons.mpr (Or.inl (Prod.ext hek.symm rfl))
      · intro h
        rcases List.mem_cons.mp h with h | h
        · simp [← h]
        · exact absurd (he _ h) (by simp [hek])
    · have hne : (k, v) ≠ e := fun h => hek (by rw [← h])
      simpa [hek, hne] using ih hl'

theorem ext_get? (m m' : OrdMap κ ν) (h : ∀ k, m.get? k = m'.get? k) : m = m' := by
  have hirr : Std.Irrefl (fun a b : κ × ν => a.1 < b.1) := ⟨fun a => lt_irrefl a.1⟩
  have hanti : Std.Antisymm (fun a b : κ × ν => a.1 < b.1) :=
    ⟨fun a b hab hba => absurd hba (lt_asymm hab)⟩
  have hmem (e : κ × ν) : e ∈ m.entries ↔ e ∈ m'.entries := by
    rw [← get?_eq_some_iff m e.1 e.2, h, get?_eq_some_iff]
  have hentries := m.sorted.eq_of_mem_iff m'.sorted hmem
  cases m
  cases m'
  simp only at hentries
  subst hentries
  rfl

theorem size_insert_le (m : OrdMap κ ν) (k : κ) (v : ν) : (m.insert k v).size ≤ m.size + 1 := by
  obtain ⟨l, hl⟩ := m
  simp only [size, insert]
  clear hl
  induction l with
  | nil => simp [insertEntry]
  | cons e l ih =>
    unfold insertEntry
    split_ifs
    · simp
    · simp
    · simpa using ih

theorem size_erase_le (m : OrdMap κ ν) (k : κ) : (m.erase k).size ≤ m.size :=
  List.length_filter_le _ _

theorem insertEntry_last (l : List (κ × ν)) (k : κ) (v : ν) (h : ∀ e ∈ l, e.1 < k) :
    insertEntry k v l = l ++ [(k, v)] := by
  induction l with
  | nil => rfl
  | cons e l ih =>
    have he : e.1 < k := h e List.mem_cons_self
    unfold insertEntry
    rw [if_neg (not_lt.mpr he.le), if_neg he.ne', ih (fun a ha => h a (List.mem_cons_of_mem _ ha))]
    rfl

theorem foldl_insert_entries (m : OrdMap κ ν) :
    m.entries.foldl (fun acc e => acc.insert e.1 e.2) ∅ = m := by
  obtain ⟨l, hl⟩ := m
  induction l using List.reverseRecOn with
  | nil => rfl
  | append_singleton l e ih =>
    obtain ⟨hl', _, he⟩ := List.pairwise_append.mp hl
    rw [List.foldl_append, ih hl', List.foldl_cons, List.foldl_nil]
    simp only [insert, mk.injEq]
    exact insertEntry_last l e.1 e.2 (fun a ha => he a ha e List.mem_cons_self)

end OrdMap
end Faultline
