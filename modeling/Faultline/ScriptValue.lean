import Faultline.ScriptText

/-! Trees of JSON by their paths: the values that are not objects with fields are the leaves, and the
leaves of a tree with their paths are the tree up to the order of fields. -/
namespace Faultline.Script
variable {ν : Type}

abbrev Path := List Text

def Value.get : Value ν → Path → Option (Value ν)
  | v, [] => some v
  | .obj fields, key :: p => (fields.lookup key).bind (fun w => w.get p)
  | _, _ :: _ => none

def Value.branch : Value ν → Bool
  | .obj fields => !fields.isEmpty
  | _ => false

def Value.isNull : Value ν → Bool
  | .null => true
  | _ => false

inductive Value.Distinct : Value ν → Prop
  | null : Distinct .null
  | bool (b : Bool) : Distinct (.bool b)
  | num (n : ν) : Distinct (.num n)
  | str (s : Text) : Distinct (.str s)
  | arr (items : List (Value ν)) (h : ∀ v ∈ items, Distinct v) : Distinct (.arr items)
  | obj (fields : List (Text × Value ν)) (nodup : (fields.map Prod.fst).Nodup)
      (h : ∀ e ∈ fields, Distinct e.2) : Distinct (.obj fields)

/-- Equality of trees up to the order of fields. -/
inductive Value.Same : Value ν → Value ν → Prop
  | null : Same .null .null
  | bool (b : Bool) : Same (.bool b) (.bool b)
  | num (n : ν) : Same (.num n) (.num n)
  | str (s : Text) : Same (.str s) (.str s)
  | arr (items items' : List (Value ν)) (length : items.length = items'.length)
      (h : ∀ (i : ℕ) (v w : Value ν), items[i]? = some v → items'[i]? = some w → Same v w) :
      Same (.arr items) (.arr items')
  | obj (fields fields' : List (Text × Value ν))
      (keys : ∀ key, (fields.lookup key).isSome = (fields'.lookup key).isSome)
      (h : ∀ (key : Text) (v w : Value ν), fields.lookup key = some v → fields'.lookup key = some w →
        Same v w) : Same (.obj fields) (.obj fields')

section Lookup
variable {β : Type}

theorem lookup_mem (l : List (Text × β)) (key : Text) (b : β) (h : l.lookup key = some b) : (key, b) ∈ l := by
  obtain ⟨l₁, l₂, hl, -⟩ := List.lookup_eq_some_iff.mp h
  rw [hl]
  exact List.mem_append_right _ List.mem_cons_self

theorem lookup_of_mem (l : List (Text × β)) (hnodup : (l.map Prod.fst).Nodup) (e : Text × β) (he : e ∈ l) :
    l.lookup e.1 = some e.2 := by
  induction l with
  | nil => cases he
  | cons d l ih =>
    rw [List.map_cons, List.nodup_cons] at hnodup
    rw [List.lookup_cons]
    rcases List.mem_cons.mp he with rfl | he
    · simp
    · have hne : e.1 ≠ d.1 := by
        intro h
        exact hnodup.1 (h ▸ List.mem_map_of_mem he)
      rw [beq_false_of_ne hne]
      exact ih hnodup.2 he

theorem lookup_eq_none (l : List (Text × β)) (key : Text) (h : key ∉ l.map Prod.fst) : l.lookup key = none := by
  cases hl : l.lookup key with
  | none => rfl
  | some b => exact absurd (List.mem_map_of_mem (lookup_mem l key b hl)) h

end Lookup

theorem sizeOf_field (fields : List (Text × Value ν)) (e : Text × Value ν) (h : e ∈ fields) :
    sizeOf e.2 < sizeOf (Value.obj fields) := by
  obtain ⟨key, v⟩ := e
  have hlt := List.sizeOf_lt_of_mem h
  simp only [Value.obj.sizeOf_spec, Prod.mk.sizeOf_spec] at hlt ⊢
  omega

theorem sizeOf_lookup (fields : List (Text × Value ν)) (key : Text) (v : Value ν)
    (h : fields.lookup key = some v) : sizeOf v < sizeOf (Value.obj fields) :=
  sizeOf_field fields (key, v) (lookup_mem fields key v h)

theorem Value.Same.refl (v : Value ν) : v.Same v := by
  induction hn : sizeOf v using Nat.strong_induction_on generalizing v with
  | _ n ih =>
    subst hn
    cases v with
    | null => exact .null
    | bool b => exact .bool b
    | num n => exact .num n
    | str s => exact .str s
    | arr items =>
      refine .arr items items rfl ?_
      intro i v w hv hw
      rw [hv] at hw
      cases hw
      have hlt := List.sizeOf_lt_of_mem (List.mem_of_getElem? hv)
      exact ih _ (by simp only [Value.arr.sizeOf_spec]; omega) v rfl
    | obj fields =>
      refine .obj fields fields (fun _ => rfl) ?_
      intro key v w hv hw
      rw [hv] at hw
      cases hw
      exact ih _ (sizeOf_lookup fields key v hv) v rfl

theorem get_append (v : Value ν) (p q : Path) : v.get (p ++ q) = (v.get p).bind (fun w => w.get q) := by
  induction p generalizing v with
  | nil => simp [Value.get]
  | cons key p ih =>
    cases v with
    | obj fields =>
      rw [List.cons_append, Value.get, Value.get, Option.bind_assoc]
      simp only [ih]
    | _ => rfl

def Value.leaf (v : Value ν) : Option (Value ν) := if v.branch then none else some v

def leafAt (v : Option (Value ν)) (p : Path) : Option (Value ν) := (v.bind (fun w => w.get p)).bind Value.leaf

theorem leafAt_obj (fields : List (Text × Value ν)) (key : Text) (p : Path) :
    leafAt (some (.obj fields)) (key :: p) = leafAt (fields.lookup key) p := rfl

theorem branch_obj (v : Value ν) (h : v.branch = true) : ∃ e fields, v = .obj (e :: fields) := by
  cases v with
  | obj fields =>
    cases fields with
    | nil => cases h
    | cons e fields => exact ⟨e, fields, rfl⟩
  | _ => cases h

theorem exists_leaf (v : Value ν) : ∃ p, (leafAt (some v) p).isSome = true := by
  induction hn : sizeOf v using Nat.strong_induction_on generalizing v with
  | _ n ih =>
    subst hn
    by_cases hbranch : v.branch = true
    · obtain ⟨e, fields, rfl⟩ := branch_obj v hbranch
      obtain ⟨p, hp⟩ := ih _ (sizeOf_field _ e List.mem_cons_self) e.2 rfl
      refine ⟨e.1 :: p, ?_⟩
      rw [leafAt_obj, List.lookup_cons, beq_self_eq_true]
      exact hp
    · refine ⟨[], ?_⟩
      change v.leaf.isSome = true
      rw [Value.leaf, if_neg hbranch]
      rfl

theorem eq_none_of_leaves (w : Option (Value ν)) (h : ∀ p, leafAt w p = none) : w = none := by
  cases w with
  | none => rfl
  | some v =>
    obtain ⟨p, hp⟩ := exists_leaf v
    rw [h p] at hp
    cases hp

/-- Two trees with the same leaves are the same. The induction is on the size of the first. -/
theorem same_of_leaves (v : Value ν) (w : Option (Value ν)) (h : ∀ p, leafAt (some v) p = leafAt w p) :
    ∃ w', w = some w' ∧ v.Same w' := by
  induction hn : sizeOf v using Nat.strong_induction_on generalizing v w with
  | _ n ih =>
    subst hn
    cases w with
    | none => exact absurd (eq_none_of_leaves (some v) h) (by simp)
    | some w =>
      refine ⟨w, rfl, ?_⟩
      have hroot : v.leaf = w.leaf := h []
      unfold Value.leaf at hroot
      by_cases hv : v.branch = true
      · have hw : w.branch = true := by
          by_contra hnot
          rw [if_pos hv, if_neg hnot] at hroot
          cases hroot
        obtain ⟨e, es, rfl⟩ := branch_obj v hv
        obtain ⟨d, ds, rfl⟩ := branch_obj w hw
        have hfield (key : Text) (p : Path) :
            leafAt ((e :: es).lookup key) p = leafAt ((d :: ds).lookup key) p := h (key :: p)
        have hmatch (key : Text) (a : Value ν) (ha : (e :: es).lookup key = some a) :
            ∃ b, (d :: ds).lookup key = some b ∧ a.Same b := by
          apply ih _ (sizeOf_lookup _ key a ha) a _ _ rfl
          intro p
          rw [← ha]
          exact hfield key p
        refine .obj _ _ ?_ ?_
        · intro key
          cases ha : (e :: es).lookup key with
          | some a =>
            obtain ⟨b, hb, -⟩ := hmatch key a ha
            rw [hb]
            rfl
          | none =>
            have hnone : (d :: ds).lookup key = none := by
              apply eq_none_of_leaves
              intro p
              rw [← hfield key p, ha]
              rfl
            rw [hnone]
        · intro key a b ha hb
          obtain ⟨b', hb', hsame⟩ := hmatch key a ha
          rw [hb] at hb'
          cases hb'
          exact hsame
      · have hw : ¬w.branch = true := by
          intro hw
          rw [if_neg hv, if_pos hw] at hroot
          cases hroot
        rw [if_neg hv, if_neg hw, Option.some.injEq] at hroot
        subst hroot
        exact Value.Same.refl v

def SameAt (v w : Option (Value ν)) : Prop :=
  (v = none ∧ w = none) ∨ ∃ a b, v = some a ∧ w = some b ∧ a.Same b

theorem sameAt_of_leaves (v w : Option (Value ν)) (h : ∀ p, leafAt v p = leafAt w p) : SameAt v w := by
  cases v with
  | none =>
    refine Or.inl ⟨rfl, eq_none_of_leaves w ?_⟩
    intro p
    rw [← h p]
    rfl
  | some a =>
    obtain ⟨b, hb, hsame⟩ := same_of_leaves a w h
    exact Or.inr ⟨a, b, rfl, hb, hsame⟩

end Faultline.Script
