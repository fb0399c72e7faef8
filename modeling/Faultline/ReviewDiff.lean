import Mathlib.Data.Set.List
import Faultline.InsertionMap
import Faultline.ScriptValue

/-! The fields of two rules side by side (`diffFields` and `ruleDiffRows` of `diff.js`). A rule is
flattened to a map from the text of a path to the text of the value there. -/
namespace Faultline.Review
open Script

variable {ν : Type} (number : ν → Text)

abbrev Fields := InsertionMap Text Text

def unusedFields : List Text :=
  [lit "Duration", lit "MaxDuration", lit "Status", lit "Body", lit "Bytes", lit "BytesPerSecond"]

def leftOut (path : Path) : Bool :=
  match path with
  | [a, b] => a = lit "Fault" && unusedFields.contains b
  | _ => false

def sortByKey {β : Type} (l : List (Text × β)) : List (Text × β) := l.insertionSort (fun a b => a.1 ≤ b.1)

mutual

/-- The names of an object are distinct, so that to sort its fields is to sort its keys. -/
def diffFields : Value ν → Path → Fields → Fields
  | .null, path, result => if leftOut path then result else result.set (stringifyStrings path) (stringify number .null)
  | .bool b, path, result => result.set (stringifyStrings path) (stringify number (.bool b))
  | .num n, path, result => result.set (stringifyStrings path) (stringify number (.num n))
  | .str s, path, result => result.set (stringifyStrings path) (stringify number (.str s))
  | .arr items, path, result => result.set (stringifyStrings path) (stringify number (.arr items))
  | .obj fields, path, result =>
    if fields.isEmpty then result.set (stringifyStrings path) (stringify number (.obj fields))
    else (sortByKey (diffEach fields)).foldl (fun r c => c.2 (path ++ [c.1]) r) result

def diffEach : List (Text × Value ν) → List (Text × (Path → Fields → Fields))
  | [] => []
  | (key, v) :: rest => (key, diffFields v) :: diffEach rest

end

inductive RowKind where
  | added
  | removed
  | changed
  | same
  deriving DecidableEq

structure Row where
  path : Text
  before : Option Text
  after : Option Text
  kind : RowKind
  deriving DecidableEq

/-- `join(" → ")` of the quoted parts. -/
def pathText (path : Path) : Text := (lit " → ").intercalate (path.map quote)

def rowKind (before after : Option Text) : RowKind :=
  if before.isNone then .added
  else if after.isNone then .removed
  else if before ≠ after then .changed
  else .same

/-- The keys of both sides, each once, in the order of a `Set`. -/
def keySet (keys : List Text) : List Text := keys.foldl (fun s key => if key ∈ s then s else s ++ [key]) []

/-- The rows of the review; `none` would be a key that `JSON.parse` refuses. -/
def ruleDiffRows (before after : Value ν) : Option (List Row) :=
  let left := diffFields number before [] InsertionMap.empty
  let right := diffFields number after [] InsertionMap.empty
  (keySet (left.keys ++ right.keys)).mapM (fun key => do
    let path ← parseStrings key
    return ⟨pathText path, left.get? key, right.get? key, rowKind (left.get? key) (right.get? key)⟩)

/-! What is flattened. -/

/-- What a value becomes at its path: nothing if it is made of fields or left out. -/
def entryAt (path : Path) (v : Value ν) : Option (Value ν) :=
  if v.isNull && leftOut path then none else v.leaf

def shown (path : Path) (v : Value ν) (p : Path) : Option (Value ν) :=
  (v.get p).bind (entryAt (path ++ p))

/-- `f` writes the entries `S` below `path` and nothing else. -/
structure Writes (path : Path) (S : Path → Option (Value ν)) (f : Fields → Fields) : Prop where
  inside : ∀ m p, (f m).get? (stringifyStrings (path ++ p)) =
    ((S p).map (stringify number)).or (m.get? (stringifyStrings (path ++ p)))
  outside : ∀ m key, (∀ p, key ≠ stringifyStrings (path ++ p)) → (f m).get? key = m.get? key

theorem writes_none (path : Path) : Writes number path (fun _ => none) id := by
  refine ⟨?_, ?_⟩
  · intro m p
    rfl
  · intro m key _
    rfl

theorem writes_set (path : Path) (v : Value ν) :
    Writes number path (fun p => if p = [] then some v else none)
      (fun m => m.set (stringifyStrings path) (stringify number v)) := by
  refine ⟨?_, ?_⟩
  · intro m p
    rw [InsertionMap.get?_set]
    by_cases hp : p = []
    · rw [if_pos hp, hp, List.append_nil, if_pos rfl]
      rfl
    · have hne : stringifyStrings (path ++ p) ≠ stringifyStrings path := by
        intro h
        exact hp (List.append_right_eq_self.mp (stringifyStrings_injective h))
      rw [if_neg hp, if_neg hne]
      rfl
  · intro m key hkey
    have hne := hkey []
    rw [List.append_nil] at hne
    rw [InsertionMap.get?_set, if_neg hne]

def branches (keys : List Text) (S : Text → Path → Option (Value ν)) : Path → Option (Value ν)
  | [] => none
  | key :: p => if key ∈ keys then S key p else none

theorem writes_children (path : Path) (S : Text → Path → Option (Value ν))
    (cs : List (Text × (Path → Fields → Fields))) (hnodup : (cs.map Prod.fst).Nodup)
    (h : ∀ c ∈ cs, Writes number (path ++ [c.1]) (S c.1) (c.2 (path ++ [c.1]))) :
    Writes number path (branches (cs.map Prod.fst) S)
      (cs.foldl (fun r c => c.2 (path ++ [c.1]) r)) := by
  induction cs with
  | nil =>
    refine ⟨?_, ?_⟩
    · intro m p
      cases p <;> rfl
    · intro m key _
      rfl
  | cons c cs ih =>
    rw [List.map_cons, List.nodup_cons] at hnodup
    have hc := h c List.mem_cons_self
    have hcs := ih hnodup.2 (fun d hd => h d (List.mem_cons_of_mem _ hd))
    refine ⟨?_, ?_⟩
    · intro m p
      rw [List.foldl_cons, hcs.inside]
      cases p with
      | nil =>
        have hout := hc.outside m (stringifyStrings (path ++ [])) (by
          intro q hq
          have heq := stringifyStrings_injective hq
          have hlen := congrArg List.length heq
          simp only [List.length_append, List.length_cons, List.length_nil] at hlen
          omega)
        rw [hout]
        rfl
      | cons key p =>
        by_cases hkey : key = c.1
        · subst hkey
          have hin := hc.inside m p
          rw [List.append_assoc, List.singleton_append] at hin
          rw [hin]
          simp only [branches, List.map_cons, List.mem_cons_self, if_true, if_neg hnodup.1, Option.map_none,
            Option.none_or]
        · have hout := hc.outside m (stringifyStrings (path ++ key :: p)) (by
            intro q hq
            have heq := stringifyStrings_injective hq
            rw [List.append_assoc, List.singleton_append] at heq
            exact hkey (List.head_eq_of_cons_eq (List.append_cancel_left heq)))
          rw [hout]
          simp only [branches, List.map_cons, List.mem_cons, hkey, false_or]
    · intro m key hkey
      rw [List.foldl_cons, hcs.outside _ key hkey]
      apply hc.outside
      intro q hq
      rw [List.append_assoc] at hq
      exact hkey _ hq

theorem diffEach_eq (fields : List (Text × Value ν)) :
    diffEach number fields = fields.map (fun e => (e.1, diffFields number e.2)) := by
  induction fields with
  | nil => rfl
  | cons e fields ih => rw [diffEach, ih, List.map_cons]

theorem shown_leaf (path : Path) (v : Value ν) (h : ∀ fields, v ≠ .obj fields) :
    shown path v = fun p => if p = [] then entryAt path v else none := by
  funext p
  cases p with
  | nil =>
    rw [shown, Value.get, List.append_nil, if_pos rfl]
    rfl
  | cons key p =>
    cases v with
    | obj fields => exact absurd rfl (h fields)
    | _ => rfl

theorem shown_cons (path : Path) (fields : List (Text × Value ν)) (key : Text) (p : Path) :
    shown path (.obj fields) (key :: p) =
      (fields.lookup key).bind (fun w => shown (path ++ [key]) w p) := by
  rw [shown, Value.get, Option.bind_assoc]
  simp only [shown, List.append_assoc, List.singleton_append]

theorem shown_obj (path : Path) (e : Text × Value ν) (fields : List (Text × Value ν)) :
    shown path (.obj (e :: fields)) = branches ((e :: fields).map Prod.fst)
      (fun key p => ((e :: fields).lookup key).bind (fun w => shown (path ++ [key]) w p)) := by
  funext p
  cases p with
  | nil => rfl
  | cons key p =>
    rw [shown_cons, branches]
    split
    · rfl
    · next hkey =>
      rw [lookup_eq_none _ key hkey]
      rfl

theorem diffFields_writes (v : Value ν) (hv : v.Distinct) (path : Path) :
    Writes number path (shown path v) (diffFields number v path) := by
  induction hn : sizeOf v using Nat.strong_induction_on generalizing v path with
  | _ n ih =>
    subst hn
    cases v with
    | null =>
      rw [shown_leaf path _ (by intro fields h; cases h)]
      by_cases hout : leftOut path = true
      · have hf : diffFields number (.null : Value ν) path = id := by
          funext m
          rw [diffFields, if_pos hout, id]
        have hS : (fun p : Path => if p = [] then entryAt path (.null : Value ν) else none) =
            fun _ => none := by
          funext p
          rw [entryAt, hout]
          split <;> rfl
        rw [hf, hS]
        exact writes_none number path
      · have hf : diffFields number (.null : Value ν) path =
            fun m => m.set (stringifyStrings path) (stringify number .null) := by
          funext m
          rw [diffFields, if_neg hout]
        have hentry : entryAt path (.null : Value ν) = some .null := by
          rw [entryAt, Bool.eq_false_iff.mpr hout]
          rfl
        rw [hf, hentry]
        exact writes_set number path .null
    | bool b =>
      rw [shown_leaf path _ (by intro fields h; cases h)]
      exact writes_set number path (.bool b)
    | num n =>
      rw [shown_leaf path _ (by intro fields h; cases h)]
      exact writes_set number path (.num n)
    | str s =>
      rw [shown_leaf path _ (by intro fields h; cases h)]
      exact writes_set number path (.str s)
    | arr items =>
      rw [shown_leaf path _ (by intro fields h; cases h)]
      exact writes_set number path (.arr items)
    | obj fields =>
      cases fields with
      | nil =>
        have hS : shown path (.obj [] : Value ν) = fun p => if p = [] then some (.obj []) else none := by
          funext p
          cases p <;> rfl
        rw [hS]
        exact writes_set number path (.obj [])
      | cons e fields =>
        cases hv with
        | obj _ hnodup hfields =>
          have hkeys : ((sortByKey (diffEach number (e :: fields))).map Prod.fst).Perm
              ((e :: fields).map Prod.fst) := by
            have hmap : (diffEach number (e :: fields)).map Prod.fst = (e :: fields).map Prod.fst := by
              rw [diffEach_eq, List.map_map]
              rfl
            rw [← hmap]
            exact (List.perm_insertionSort _ _).map Prod.fst
          have hchildren := writes_children number path
            (fun key p => ((e :: fields).lookup key).bind (fun w => shown (path ++ [key]) w p))
            (sortByKey (diffEach number (e :: fields))) (hkeys.nodup_iff.mpr hnodup) (by
              intro c hc
              rw [sortByKey, List.mem_insertionSort, diffEach_eq] at hc
              obtain ⟨d, hd, rfl⟩ := List.mem_map.mp hc
              have hlookup := lookup_of_mem (e :: fields) hnodup d hd
              have hchild := ih _ (sizeOf_field (e :: fields) d hd) d.2 (hfields d hd) (path ++ [d.1]) rfl
              simp only [hlookup, Option.bind_some]
              exact hchild)
          have hf : diffFields number (.obj (e :: fields)) path =
              (sortByKey (diffEach number (e :: fields))).foldl (fun r c => c.2 (path ++ [c.1]) r) := by
            funext m
            rw [diffFields, if_neg (by simp)]
          have hS : branches ((sortByKey (diffEach number (e :: fields))).map Prod.fst)
              (fun key p => ((e :: fields).lookup key).bind (fun w => shown (path ++ [key]) w p)) =
              shown path (.obj (e :: fields)) := by
            rw [shown_obj]
            funext p
            cases p with
            | nil => rfl
            | cons key p => simp only [branches, hkeys.mem_iff]
          rw [hf, ← hS]
          exact hchildren

/-! The rows. -/

theorem nodup_keySet (keys : List Text) : (keySet keys).Nodup := by
  have hfold (s : List Text) (hs : s.Nodup) :
      (keys.foldl (fun s key => if key ∈ s then s else s ++ [key]) s).Nodup := by
    induction keys generalizing s with
    | nil => exact hs
    | cons key keys ih =>
      rw [List.foldl_cons]
      apply ih
      split
      · exact hs
      · next hkey => exact List.nodup_append.mpr ⟨hs, List.nodup_singleton key, by
          intro a ha b hb hab
          rw [List.mem_singleton.mp hb] at hab
          exact hkey (hab ▸ ha)⟩
  exact hfold [] List.nodup_nil

theorem mem_keySet (keys : List Text) (k : Text) : k ∈ keySet keys ↔ k ∈ keys := by
  have hfold (s : List Text) :
      k ∈ keys.foldl (fun s key => if key ∈ s then s else s ++ [key]) s ↔ k ∈ s ∨ k ∈ keys := by
    induction keys generalizing s with
    | nil => simp
    | cons key keys ih =>
      rw [List.foldl_cons, ih]
      split
      · next hkey =>
        constructor
        · rintro (h | h)
          · exact Or.inl h
          · exact Or.inr (List.mem_cons_of_mem _ h)
        · rintro (h | h)
          · exact Or.inl h
          · rcases List.mem_cons.mp h with rfl | h
            · exact Or.inl hkey
            · exact Or.inr h
      · rw [List.mem_append, List.mem_singleton, List.mem_cons, or_assoc]
  rw [keySet, hfold]
  simp

def entryText (v : Value ν) (q : Path) : Option Text := (shown [] v q).map (stringify number)

theorem get?_diffFields (v : Value ν) (hv : v.Distinct) (q : Path) :
    (diffFields number v [] InsertionMap.empty).get? (stringifyStrings q) = entryText number v q := by
  have hin := (diffFields_writes number v hv []).inside InsertionMap.empty q
  rw [List.nil_append, InsertionMap.get?_empty, Option.or_none] at hin
  exact hin

theorem mem_keys_diffFields (v : Value ν) (hv : v.Distinct) (key : Text) :
    key ∈ (diffFields number v [] InsertionMap.empty).keys ↔
      ∃ q, stringifyStrings q = key ∧ (shown [] v q).isSome = true := by
  rw [InsertionMap.mem_keys_iff]
  by_cases hkey : ∃ q, stringifyStrings q = key
  · obtain ⟨q, rfl⟩ := hkey
    rw [get?_diffFields number v hv q, entryText, Option.isSome_map]
    constructor
    · intro h
      exact ⟨q, rfl, h⟩
    · rintro ⟨q', heq, h⟩
      rw [stringifyStrings_injective heq] at h
      exact h
  · have hout := (diffFields_writes number v hv []).outside InsertionMap.empty key
      (fun q hq => hkey ⟨q, hq.symm⟩)
    rw [hout, InsertionMap.get?_empty]
    constructor
    · intro h
      cases h
    · rintro ⟨q, heq, -⟩
      exact absurd ⟨q, heq⟩ hkey

def rowAt (before after : Value ν) (q : Path) : Row :=
  ⟨pathText q, entryText number before q, entryText number after q,
    rowKind (entryText number before q) (entryText number after q)⟩

theorem mapM_eq_map {α β : Type} (f : α → Option β) (g : α → β) (l : List α) (h : ∀ a ∈ l, f a = some (g a)) :
    l.mapM f = some (l.map g) := by
  induction l with
  | nil => rfl
  | cons a l ih =>
    rw [List.mapM_cons, h a List.mem_cons_self, ih (fun b hb => h b (List.mem_cons_of_mem _ hb))]
    rfl

theorem ruleDiffRows_eq (before after : Value ν) (hb : before.Distinct) (ha : after.Distinct) :
    ∃ paths : List Path, paths.Nodup ∧
      (∀ q, q ∈ paths ↔ (shown [] before q).isSome = true ∨ (shown [] after q).isSome = true) ∧
      ruleDiffRows number before after = some (paths.map (rowAt number before after)) := by
  let keys := keySet ((diffFields number before [] InsertionMap.empty).keys ++
    (diffFields number after [] InsertionMap.empty).keys)
  have hmem (key : Text) : key ∈ keys ↔ ∃ q, stringifyStrings q = key ∧
      ((shown [] before q).isSome = true ∨ (shown [] after q).isSome = true) := by
    rw [mem_keySet, List.mem_append, mem_keys_diffFields number before hb,
      mem_keys_diffFields number after ha, ← exists_or]
    simp only [and_or_left]
  -- every key is the text of a path
  have hrange : keys ∈ Set.range (List.map stringifyStrings) := by
    rw [Set.range_list_map]
    intro key hkey
    obtain ⟨q, hq, -⟩ := (hmem key).mp hkey
    exact ⟨q, hq⟩
  obtain ⟨paths, hpaths⟩ := hrange
  refine ⟨paths, ?_, ?_, ?_⟩
  · have hnodup := nodup_keySet ((diffFields number before [] InsertionMap.empty).keys ++
      (diffFields number after [] InsertionMap.empty).keys)
    change keys.Nodup at hnodup
    rw [← hpaths] at hnodup
    exact hnodup.of_map _
  · intro q
    rw [← List.mem_map_of_injective stringifyStrings_injective, hpaths, hmem]
    constructor
    · rintro ⟨q', heq, h⟩
      rw [stringifyStrings_injective heq] at h
      exact h
    · intro h
      exact ⟨q, rfl, h⟩
  · change keys.mapM _ = _
    rw [← hpaths, List.mapM_map]
    apply mapM_eq_map
    intro q _
    rw [Function.comp_apply, parseStrings_stringify, get?_diffFields number before hb,
      get?_diffFields number after ha]
    rfl

theorem rowKind_eq_same (a b : Option Text) : rowKind a b = .same ↔ a.isSome = true ∧ a = b := by
  unfold rowKind
  cases a with
  | none => simp
  | some a =>
    cases b with
    | none => simp
    | some b =>
      by_cases h : a = b
      · simp [h]
      · simp [h]

theorem rowAt_marked (hn : NumberText number) (before after : Value ν) (q : Path)
    (hq : (shown [] before q).isSome = true ∨ (shown [] after q).isSome = true) :
    (rowAt number before after q).kind = .same ↔ shown [] before q = shown [] after q := by
  have hinj := Option.map_injective (stringify_injective hn)
  change rowKind (entryText number before q) (entryText number after q) = .same ↔ _
  rw [rowKind_eq_same, entryText, entryText, hinj.eq_iff, Option.isSome_map]
  constructor
  · intro h
    exact h.2
  · intro h
    refine ⟨?_, h⟩
    rcases hq with hq | hq
    · exact hq
    · rw [h]
      exact hq

theorem all_same_iff (hn : NumberText number) (before after : Value ν) (hb : before.Distinct)
    (ha : after.Distinct) : ∃ rows, ruleDiffRows number before after = some rows ∧
      ((∀ row ∈ rows, row.kind = .same) ↔ ∀ q, shown [] before q = shown [] after q) := by
  obtain ⟨paths, -, hmem, hrows⟩ := ruleDiffRows_eq number before after hb ha
  refine ⟨_, hrows, ?_⟩
  constructor
  · intro hsame q
    by_cases hq : (shown [] before q).isSome = true ∨ (shown [] after q).isSome = true
    · have hrow := hsame _ (List.mem_map_of_mem ((hmem q).mpr hq))
      exact (rowAt_marked number hn before after q hq).mp hrow
    · rw [not_or, Option.not_isSome_iff_eq_none, Option.not_isSome_iff_eq_none] at hq
      rw [hq.1, hq.2]
  · intro heq row hrow
    obtain ⟨q, hq, rfl⟩ := List.mem_map.mp hrow
    exact (rowAt_marked number hn before after q ((hmem q).mp hq)).mpr (heq q)

end Faultline.Review
