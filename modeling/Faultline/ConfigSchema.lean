import Faultline.ConfigYaml

/-! Schemas of YAML trees, apart from the decoder. A schema says which trees have its shape and which
value such a tree describes over the value that was there before. A decoder meets a schema if it
accepts exactly these trees, up to aliases and nulls, and returns exactly that value. -/
namespace Faultline
variable {α β : Type}

def pairsOf : List Node → List (Node × Node)
  | key :: value :: rest => (key, value) :: pairsOf rest
  | _ => []

namespace Node

def pairs : Node → List (Node × Node)
  | .mapping _ content => pairsOf content
  | _ => []

def items : Node → List Node
  | .sequence _ content => content
  | _ => []

def isMapping : Node → Bool
  | .mapping _ _ => true
  | _ => false

def isSequence : Node → Bool
  | .sequence _ _ => true
  | _ => false

def isScalar : Node → Bool
  | .scalar _ _ => true
  | _ => false

def isNull (n : Node) : Bool := n.isAlias || n.tag = "!!null"

end Node

def findValue (key : String) (l : List (Node × Node)) : Option Node :=
  (l.find? (fun p => p.1.value = key)).map (·.2)

def Node.field? (n : Node) (key : String) : Option Node := findValue key n.pairs

/-- The nodes of a tree, keys and what is in them included. -/
inductive Node.Within : Node → Node → Prop where
  | self (n : Node) : Within n n
  | key {m n : Node} (p : Node × Node) (hp : p ∈ n.pairs) (h : Within m p.1) : Within m n
  | value {m n : Node} (p : Node × Node) (hp : p ∈ n.pairs) (h : Within m p.2) : Within m n
  | item {m n : Node} (i : Node) (hi : i ∈ n.items) (h : Within m i) : Within m n

/-- The nodes of a tree outside of keys. -/
inductive Node.Reached : Node → Node → Prop where
  | self (n : Node) : Reached n n
  | value {m n : Node} (p : Node × Node) (hp : p ∈ n.pairs) (h : Reached m p.2) : Reached m n
  | item {m n : Node} (i : Node) (hi : i ∈ n.items) (h : Reached m i) : Reached m n

def Node.Everywhere (P : Node → Prop) (n : Node) : Prop := ∀ m, m.Reached n → P m

theorem Node.everywhere_iff (P : Node → Prop) (n : Node) : n.Everywhere P ↔
    P n ∧ (∀ p ∈ n.pairs, p.2.Everywhere P) ∧ ∀ i ∈ n.items, i.Everywhere P := by
  constructor
  · intro h
    exact ⟨h n (.self n), fun p hp m hm => h m (.value p hp hm), fun i hi m hm => h m (.item i hi hm)⟩
  · rintro ⟨hself, hpairs, hitems⟩ m hm
    cases hm with
    | self => exact hself
    | value p hp hm => exact hpairs p hp m hm
    | item i hi hm => exact hitems i hi m hm

def Node.Plain (n : Node) : Prop := n.Everywhere (fun m => m.isNull = false)

def Node.StringKeys (n : Node) : Prop := n.Everywhere (fun m => ∀ p ∈ m.pairs, p.1.tag = "!!str")

def Node.ScalarKeys (n : Node) : Prop := n.Everywhere (fun m => ∀ p ∈ m.pairs, p.1.isScalar = true)

theorem Node.plain_iff (n : Node) : n.Plain ↔
    n.isNull = false ∧ (∀ p ∈ n.pairs, p.2.Plain) ∧ ∀ i ∈ n.items, i.Plain := Node.everywhere_iff _ n

theorem Node.stringKeys_iff (n : Node) : n.StringKeys ↔
    (∀ p ∈ n.pairs, p.1.tag = "!!str") ∧ (∀ p ∈ n.pairs, p.2.StringKeys) ∧ ∀ i ∈ n.items, i.StringKeys :=
  Node.everywhere_iff _ n

def Node.NoNulls (n : Node) : Prop := ∀ m : Node, m.Within n → m.isNull = false

theorem Node.Reached.within {m n : Node} (h : m.Reached n) : m.Within n := by
  induction h with
  | self => exact .self _
  | value p hp _ ih => exact .value p hp ih
  | item i hi _ ih => exact .item i hi ih

theorem Node.NoNulls.plain {n : Node} (h : n.NoNulls) : n.Plain := fun m hm => h m hm.within

theorem pairs_of_scalar {n : Node} (h : n.isScalar = true) : n.pairs = [] := by
  cases n <;> first | rfl | cases h

theorem items_of_scalar {n : Node} (h : n.isScalar = true) : n.items = [] := by
  cases n <;> first | rfl | cases h

theorem within_scalar {m n : Node} (hn : n.isScalar = true) (h : m.Within n) : m = n := by
  cases h with
  | self => rfl
  | key p hp _ =>
    rw [pairs_of_scalar hn] at hp
    cases hp
  | value p hp _ =>
    rw [pairs_of_scalar hn] at hp
    cases hp
  | item i hi _ =>
    rw [items_of_scalar hn] at hi
    cases hi

theorem isNull_of_scalar {n : Node} (hn : n.isScalar = true) (htag : n.tag = "!!str") : n.isNull = false := by
  have halias : n.isAlias = false := by cases n <;> first | rfl | cases hn
  rw [Node.isNull, halias, htag]
  rfl

theorem noNulls_of_keys {n : Node} (hplain : n.Plain) (hstring : n.StringKeys) (hscalar : n.ScalarKeys) :
    n.NoNulls := by
  intro m hm
  induction hm with
  | self => exact hplain _ (.self _)
  | key p hp h _ =>
    have hkey := hscalar _ (.self _) p hp
    rw [within_scalar hkey h]
    exact isNull_of_scalar hkey (hstring _ (.self _) p hp)
  | value p hp _ ih =>
    apply ih
    · exact ((Node.everywhere_iff _ _).mp hplain).2.1 p hp
    · exact ((Node.everywhere_iff _ _).mp hstring).2.1 p hp
    · exact ((Node.everywhere_iff _ _).mp hscalar).2.1 p hp
  | item i hi _ ih =>
    apply ih
    · exact ((Node.everywhere_iff _ _).mp hplain).2.2 i hi
    · exact ((Node.everywhere_iff _ _).mp hstring).2.2 i hi
    · exact ((Node.everywhere_iff _ _).mp hscalar).2.2 i hi

/-- The same tree with the pairs of its mappings in other orders. -/
inductive Reordered : Node → Node → Prop where
  | same (n : Node) : Reordered n n
  | mapping (tag : String) (content content' : List Node) (l : List (Node × Node))
      (hkeys : (pairsOf content).map (·.1) = l.map (·.1))
      (hvalues : ∀ (i : ℕ) (p q : Node × Node), (pairsOf content)[i]? = some p → l[i]? = some q →
        Reordered p.2 q.2)
      (hperm : l.Perm (pairsOf content')) : Reordered (.mapping tag content) (.mapping tag content')
  | sequence (tag : String) (content content' : List Node) (hlen : content.length = content'.length)
      (hitems : ∀ (i : ℕ) (m m' : Node), content[i]? = some m → content'[i]? = some m' → Reordered m m') :
      Reordered (.sequence tag content) (.sequence tag content')

theorem Reordered.plain {n n' : Node} (h : Reordered n n') (hn : n.Plain) : n'.Plain := by
  induction h with
  | same n => exact hn
  | mapping tag content content' l hkeys hvalues hperm ih =>
    obtain ⟨hself, hpairs, -⟩ := (Node.everywhere_iff _ _).mp hn
    refine (Node.everywhere_iff _ _).mpr ⟨hself, ?_, (fun i hi => by cases hi)⟩
    intro q hq
    obtain ⟨i, hi⟩ := List.mem_iff_getElem?.mp (hperm.mem_iff.mpr hq)
    have hlen := congrArg List.length hkeys
    rw [List.length_map, List.length_map] at hlen
    have hlt := (List.getElem?_eq_some_iff.mp hi).1
    obtain ⟨p, hp⟩ : ∃ p, (pairsOf content)[i]? = some p := ⟨_, List.getElem?_eq_getElem (by omega)⟩
    exact ih i p q hp hi (hpairs p (List.mem_of_getElem? hp))
  | sequence tag content content' hlen hitems ih =>
    obtain ⟨hself, -, hall⟩ := (Node.everywhere_iff _ _).mp hn
    refine (Node.everywhere_iff _ _).mpr ⟨hself, (fun p hp => by cases hp), ?_⟩
    intro m' hm'
    obtain ⟨i, hi⟩ := List.mem_iff_getElem?.mp hm'
    have hlt := (List.getElem?_eq_some_iff.mp hi).1
    simp only [Node.items] at hlt
    obtain ⟨m, hm⟩ : ∃ m, content[i]? = some m := ⟨_, List.getElem?_eq_getElem (by omega)⟩
    exact ih i m m' hm hi (hall m (List.mem_of_getElem? hm))

/-! Schemas. -/

structure Schema (α : Type) where
  Shape : Node → Prop
  value : Node → α → α

structure Meets (decode : Decoder α) (s : Schema α) : Prop where
  decodes : ∀ n path v w, decode n path v = .ok w ↔ n.Plain ∧ s.Shape n ∧ w = s.value n v
  keys : ∀ n, s.Shape n → n.StringKeys
  unordered : ∀ n n' v, Reordered n n' → s.Shape n → s.Shape n' ∧ s.value n' v = s.value n v

def scalarSchema (tags : List String) (decode : Node → Option α) : Schema α where
  Shape n := n.isScalar = true ∧ n.tag ∈ tags ∧ (decode n).isSome = true
  value n v := (decode n).getD v

def durationSchema (y : Yaml) : Schema Int64 where
  Shape n := n.isScalar = true ∧ n.tag = "!!str" ∧ (y.parseDuration n.value).isSome = true
  value n v := (y.parseDuration n.value).getD v

def pointerSchema (zero : α) (s : Schema α) : Schema (Option α) where
  Shape := s.Shape
  value n _ := some (s.value n zero)

def sliceSchema (zero : α) (s : Schema α) : Schema (List α) where
  Shape n := n.isSequence = true ∧ ∀ m ∈ n.items, s.Shape m
  value n _ := n.items.map (fun m => s.value m zero)

structure DistinctKeys (n : Node) : Prop where
  string : ∀ p ∈ n.pairs, p.1.tag = "!!str"
  distinct : (n.pairs.map (·.1.value)).Nodup

def mapSchema (zero : β) (s : Schema β) : Schema (Option (OrdMap String β)) where
  Shape n := n.isMapping = true ∧ DistinctKeys n ∧ ∀ p ∈ n.pairs, s.Shape p.2
  value n _ := some (n.pairs.foldl (fun h p => h.insert p.1.value (s.value p.2 zero)) ∅)

/-- A field of a struct: its key, how it is read and written, and its schema. -/
structure FieldSpec (α : Type) where
  key : String
  β : Type
  get : α → β
  set : α → β → α
  schema : Schema β
  get_set : ∀ v x, get (set v x) = x

/-- The fields of a struct. They have different keys, are independent of each other, and make up the
struct. -/
structure Fields (α : Type) where
  all : List (FieldSpec α)
  distinct : (all.map FieldSpec.key).Nodup
  independent : ∀ f ∈ all, ∀ g ∈ all, f.key ≠ g.key → ∀ v x, g.get (f.set v x) = g.get v
  determined : ∀ v w, (∀ f ∈ all, f.get v = f.get w) → v = w

/-- The value of a field: the one that is described for its key, or else the one before. -/
def Node.fieldValue (n : Node) (key : String) (s : Schema β) (before : β) : β :=
  (n.field? key).elim before (fun m => s.value m before)

def structSchema (fields : Fields α) (value : Node → α → α) : Schema α where
  Shape n := n.isMapping = true ∧ DistinctKeys n ∧
    ∀ p ∈ n.pairs, ∃ f ∈ fields.all, f.key = p.1.value ∧ f.schema.Shape p.2
  value := value

/-! What decoders do. -/

theorem notNull_ok {decode : Decoder α} {n : Node} {path : String} {v w : α} :
    notNull decode n path v = .ok w ↔ n.isNull = false ∧ decode n path v = .ok w := by
  have hnull : (n.isAlias ∨ n.tag = "!!null") ↔ n.isNull = true := by simp [Node.isNull]
  unfold notNull
  cases h : n.isNull with
  | true =>
    rw [if_pos (hnull.mpr h)]
    constructor
    · intro hfail
      cases hfail
    · rintro ⟨hfalse, -⟩
      cases hfalse
  | false =>
    rw [if_neg (fun hh => by rw [hnull.mp hh] at h; cases h)]
    exact ⟨fun hok => ⟨rfl, hok⟩, fun hok => hok.2⟩

theorem map_eq_ok {ε : Type} {f : α → β} {x : Except ε α} {b : β} :
    x.map f = .ok b ↔ ∃ a, x = .ok a ∧ f a = b := by
  cases x with
  | error e => simp [Except.map]
  | ok a => simp [Except.map]

theorem scalar_of {n : Node} (h : n.isScalar = true) : ∃ tag value, n = .scalar tag value := by
  cases n <;> first | exact ⟨_, _, rfl⟩ | cases h

theorem mapping_of {n : Node} (h : n.isMapping = true) : ∃ tag content, n = .mapping tag content := by
  cases n <;> first | exact ⟨_, _, rfl⟩ | cases h

theorem sequence_of {n : Node} (h : n.isSequence = true) : ∃ tag content, n = .sequence tag content := by
  cases n <;> first | exact ⟨_, _, rfl⟩ | cases h

theorem everywhere_of_scalar {P : Node → Prop} {n : Node} (h : n.isScalar = true) (hn : P n) : n.Everywhere P := by
  intro m hm
  rw [within_scalar h hm.within]
  exact hn

theorem plain_scalar {n : Node} (h : n.isScalar = true) : n.Plain ↔ n.isNull = false :=
  ⟨fun hn => hn n (.self n), fun hn => everywhere_of_scalar h hn⟩

theorem stringKeys_of_scalar {n : Node} (h : n.isScalar = true) : n.StringKeys := by
  intro m hm p hp
  rw [within_scalar h hm.within, pairs_of_scalar h] at hp
  cases hp

theorem scalarKeys_of_scalar {n : Node} (h : n.isScalar = true) : n.ScalarKeys := by
  intro m hm p hp
  rw [within_scalar h hm.within, pairs_of_scalar h] at hp
  cases hp

theorem reordered_of_scalar {n n' : Node} (h : Reordered n n') (hn : n.isScalar = true) : n' = n := by
  cases h with
  | same => rfl
  | mapping => cases hn
  | sequence => cases hn

theorem meets_scalar (tags : List String) (decode : Node → Option α) :
    Meets (decodeScalar tags decode) (scalarSchema tags decode) := by
  refine ⟨?_, fun n hn => stringKeys_of_scalar hn.1, ?_⟩
  · intro n path v w
    rw [decodeScalar, notNull_ok]
    by_cases hscalar : n.isScalar = true
    · obtain ⟨tag, value, rfl⟩ := scalar_of hscalar
      rw [plain_scalar hscalar]
      apply and_congr_right
      intro _
      simp only [scalarSchema]
      by_cases htag : tag ∈ tags
      · rw [if_neg (not_not.mpr htag)]
        cases hdecode : decode (.scalar tag value) with
        | none => simp [failAt, invalid]
        | some x => simp [Node.isScalar, Node.tag, htag, eq_comm]
      · rw [if_pos htag]
        simp [failAt, invalid, Node.tag, htag]
    · constructor
      · rintro ⟨-, hok⟩
        cases n <;> first | exact absurd rfl hscalar | cases hok
      · rintro ⟨-, ⟨hshape, -⟩, -⟩
        exact absurd hshape hscalar
  · intro n n' v h hn
    rw [reordered_of_scalar h hn.1]
    exact ⟨hn, rfl⟩

theorem meets_duration (y : Yaml) (hy : y.parseDuration "" = none) :
    Meets (decodeDuration y) (durationSchema y) := by
  refine ⟨?_, fun n hn => stringKeys_of_scalar hn.1, ?_⟩
  · intro n path v w
    rw [decodeDuration, notNull_ok]
    by_cases hscalar : n.isScalar = true
    · rw [plain_scalar hscalar]
      apply and_congr_right
      intro _
      simp only [durationSchema]
      by_cases htag : n.tag = "!!str"
      · rw [if_neg (not_not.mpr htag)]
        cases hparse : y.parseDuration n.value with
        | none => simp [failAt, invalid]
        | some d => simp [hscalar, htag, eq_comm]
      · rw [if_pos htag]
        simp [failAt, invalid, htag]
    · have hvalue : n.value = "" := by cases n <;> first | rfl | exact absurd rfl hscalar
      constructor
      · rintro ⟨-, hok⟩
        rw [hvalue, hy] at hok
        split_ifs at hok <;> cases hok
      · rintro ⟨-, ⟨hshape, -⟩, -⟩
        exact absurd hshape hscalar
  · intro n n' v h hn
    rw [reordered_of_scalar h hn.1]
    exact ⟨hn, rfl⟩

theorem meets_pointer {decode : Decoder α} {s : Schema α} (zero : α) (h : Meets decode s) :
    Meets (decodePointer zero decode) (pointerSchema zero s) := by
  refine ⟨?_, h.keys, ?_⟩
  · intro n path v w
    rw [decodePointer, notNull_ok, map_eq_ok]
    simp only [h.decodes, pointerSchema]
    constructor
    · rintro ⟨-, x, ⟨hplain, hshape, rfl⟩, rfl⟩
      exact ⟨hplain, hshape, rfl⟩
    · rintro ⟨hplain, hshape, rfl⟩
      exact ⟨hplain n (.self n), _, ⟨hplain, hshape, rfl⟩, rfl⟩
  · intro n n' v hn hshape
    obtain ⟨hshape', hvalue⟩ := h.unordered n n' zero hn hshape
    exact ⟨hshape', congrArg some hvalue⟩

theorem decodeItems_ok {decode : Decoder α} {s : Schema α} (zero : α) (h : Meets decode s) (path : String) (i : ℕ)
    (content : List Node) (ws : List α) : decodeItems zero decode path i content = .ok ws ↔
      (∀ m ∈ content, m.Plain ∧ s.Shape m) ∧ ws = content.map (fun m => s.value m zero) := by
  induction content generalizing i ws with
  | nil => simp [decodeItems, eq_comm]
  | cons m rest ih =>
    simp only [decodeItems, bind_eq_ok, pure_eq_ok, h.decodes, ih, List.forall_mem_cons, List.map_cons]
    constructor
    · rintro ⟨x, ⟨hplain, hshape, rfl⟩, xs, ⟨hall, rfl⟩, rfl⟩
      exact ⟨⟨⟨hplain, hshape⟩, hall⟩, rfl⟩
    · rintro ⟨⟨⟨hplain, hshape⟩, hall⟩, rfl⟩
      exact ⟨_, ⟨hplain, hshape, rfl⟩, _, ⟨hall, rfl⟩, rfl⟩

theorem meets_slice {decode : Decoder α} {s : Schema α} (zero : α) (h : Meets decode s) :
    Meets (decodeSlice zero decode) (sliceSchema zero s) := by
  refine ⟨?_, ?_, ?_⟩
  · intro n path v w
    rw [decodeSlice, notNull_ok]
    by_cases hsequence : n.isSequence = true
    · obtain ⟨tag, content, rfl⟩ := sequence_of hsequence
      simp only [decodeItems_ok zero h, Node.plain_iff (.sequence tag content), sliceSchema, Node.items]
      constructor
      · rintro ⟨hnull, hall, rfl⟩
        refine ⟨⟨hnull, ?_, fun m hm => (hall m hm).1⟩, ⟨rfl, fun m hm => (hall m hm).2⟩, rfl⟩
        intro p hp
        cases hp
      · rintro ⟨⟨hnull, -, hplain⟩, ⟨-, hshape⟩, rfl⟩
        exact ⟨hnull, fun m hm => ⟨hplain m hm, hshape m hm⟩, rfl⟩
    · constructor
      · rintro ⟨-, hok⟩
        cases n <;> first | exact absurd rfl hsequence | cases hok
      · rintro ⟨-, ⟨hshape, -⟩, -⟩
        exact absurd hshape hsequence
  · rintro n ⟨hsequence, hall⟩
    obtain ⟨tag, content, rfl⟩ := sequence_of hsequence
    rw [Node.stringKeys_iff]
    refine ⟨?_, ?_, fun m hm => h.keys m (hall m hm)⟩
    · intro p hp
      cases hp
    · intro p hp
      cases hp
  · rintro n n' v hn ⟨hsequence, hall⟩
    cases hn with
    | same => exact ⟨⟨hsequence, hall⟩, rfl⟩
    | mapping => cases hsequence
    | sequence tag content content' hlen hitems =>
      have hstep (i : ℕ) (hi : i < content.length) :
          s.Shape (content'[i]) ∧ s.value (content'[i]) zero = s.value content[i] zero := by
        apply h.unordered content[i]
        · exact hitems i _ _ (List.getElem?_eq_getElem hi) (List.getElem?_eq_getElem (hlen ▸ hi))
        · exact hall _ (List.getElem_mem hi)
      refine ⟨⟨rfl, ?_⟩, ?_⟩
      · intro m' hm'
        obtain ⟨i, hi, rfl⟩ := List.mem_iff_getElem.mp hm'
        exact (hstep i (hlen ▸ hi)).1
      · apply List.ext_getElem
        · simp only [sliceSchema, Node.items, List.length_map, hlen]
        · intro i hi' hi
          simp only [sliceSchema, Node.items, List.getElem_map]
          simp only [sliceSchema, Node.items, List.length_map] at hi
          exact (hstep i hi).2

/-! Mappings. -/

def Steps (field : String → Option (Decoder α)) (path : String) : List (Node × Node) → α → α → Prop
  | [], v, w => w = v
  | p :: rest, v, w => ∃ decode u, field p.1.value = some decode ∧
      decode p.2 (childPath path p.1.value) v = .ok u ∧ Steps field path rest u w

theorem decodePairs_ok (field : String → Option (Decoder α)) (path : String) (seen : List String)
    (content : List Node) (v w : α) : decodePairs field path seen content v = .ok w ↔
      (∀ p ∈ pairsOf content, p.1.tag = "!!str" ∧ p.1.value ∉ seen) ∧
      ((pairsOf content).map (·.1.value)).Nodup ∧ Steps field path (pairsOf content) v w := by
  induction hn : content.length using Nat.strong_induction_on generalizing content seen v with
  | _ n ih =>
    subst hn
    match content with
    | [] => simp [decodePairs, pairsOf, Steps, eq_comm]
    | [key] => simp [decodePairs, pairsOf, Steps, eq_comm]
    | key :: value :: rest =>
      have hrest (u : α) := ih rest.length (by simp) (key.value :: seen) rest u rfl
      simp only [decodePairs, bind_eq_ok, reject_eq_ok, exists_const, not_not, pairsOf, List.forall_mem_cons,
        List.map_cons, List.nodup_cons, Steps]
      cases hfield : field key.value with
      | none =>
        constructor
        · rintro ⟨-, -, hok⟩
          cases hok
        · rintro ⟨-, -, decode, u, hnone, -⟩
          cases hnone
      | some decode =>
        simp only [bind_eq_ok, hrest, List.mem_cons, not_or]
        constructor
        · rintro ⟨htag, hseen, u, hu, hkeys, hdistinct, hsteps⟩
          refine ⟨⟨⟨htag, hseen⟩, fun p hp => ⟨(hkeys p hp).1, (hkeys p hp).2.2⟩⟩, ⟨?_, hdistinct⟩, decode, u, rfl,
            hu, hsteps⟩
          intro hmem
          obtain ⟨p, hp, heq⟩ := List.mem_map.mp hmem
          exact (hkeys p hp).2.1 heq
        · rintro ⟨⟨⟨htag, hseen⟩, hkeys⟩, ⟨hfresh, hdistinct⟩, decode', u, hsome, hu, hsteps⟩
          cases hsome
          refine ⟨htag, hseen, u, hu, fun p hp => ⟨(hkeys p hp).1, ?_, (hkeys p hp).2⟩, hdistinct, hsteps⟩
          intro heq
          exact hfresh (List.mem_map.mpr ⟨p, hp, heq⟩)

theorem decodeMapping_ok (start : α → α) (field : String → Option (Decoder α)) (n : Node) (path : String) (v w : α) :
    decodeMapping start field n path v = .ok w ↔ n.isNull = false ∧ n.isMapping = true ∧ DistinctKeys n ∧
      Steps field path n.pairs (start v) w := by
  rw [decodeMapping, notNull_ok]
  apply and_congr_right
  intro _
  by_cases hmapping : n.isMapping = true
  · obtain ⟨tag, content, rfl⟩ := mapping_of hmapping
    simp only [decodePairs_ok, Node.pairs, List.not_mem_nil, not_false_eq_true, and_true, Node.isMapping, true_and]
    constructor
    · rintro ⟨hstring, hdistinct, hsteps⟩
      exact ⟨⟨hstring, hdistinct⟩, hsteps⟩
    · rintro ⟨⟨hstring, hdistinct⟩, hsteps⟩
      exact ⟨hstring, hdistinct, hsteps⟩
  · constructor
    · intro hok
      cases n <;> first | exact absurd rfl hmapping | cases hok
    · rintro ⟨hshape, -⟩
      exact absurd hshape hmapping

theorem findValue_cons (key : String) (p : Node × Node) (l : List (Node × Node)) :
    findValue key (p :: l) = if p.1.value = key then some p.2 else findValue key l := by
  unfold findValue
  by_cases h : p.1.value = key
  · rw [if_pos h, List.find?_cons_of_pos (by simpa using h), Option.map_some]
  · rw [if_neg h, List.find?_cons_of_neg (by simpa using h)]

theorem findValue_fresh {key : String} {l : List (Node × Node)} (h : key ∉ l.map (·.1.value)) :
    findValue key l = none := by
  unfold findValue
  rw [Option.map_eq_none_iff, List.find?_eq_none]
  intro p hp heq
  exact h (List.mem_map.mpr ⟨p, hp, of_decide_eq_true heq⟩)

theorem findValue_eq_some {key : String} {l : List (Node × Node)} (hl : (l.map (·.1.value)).Nodup) (m : Node) :
    findValue key l = some m ↔ ∃ p ∈ l, p.1.value = key ∧ p.2 = m := by
  induction l with
  | nil => simp [findValue]
  | cons p l ih =>
    rw [List.map_cons, List.nodup_cons] at hl
    rw [findValue_cons]
    by_cases hkey : p.1.value = key
    · rw [if_pos hkey]
      constructor
      · intro h
        exact ⟨p, List.mem_cons_self, hkey, Option.some.inj h⟩
      · rintro ⟨q, hq, hqkey, rfl⟩
        rcases List.mem_cons.mp hq with rfl | hmem
        · rfl
        · exact absurd (List.mem_map.mpr ⟨q, hmem, hqkey.trans hkey.symm⟩) hl.1
    · rw [if_neg hkey, ih hl.2]
      constructor
      · rintro ⟨q, hq, hboth⟩
        exact ⟨q, List.mem_cons_of_mem p hq, hboth⟩
      · rintro ⟨q, hq, hqkey, hqm⟩
        rcases List.mem_cons.mp hq with rfl | hmem
        · exact absurd hqkey hkey
        · exact ⟨q, hmem, hqkey, hqm⟩

theorem findValue_reordered {l l' l'' : List (Node × Node)} (hkeys : l.map (·.1) = l'.map (·.1))
    (hvalues : ∀ (i : ℕ) (p q : Node × Node), l[i]? = some p → l'[i]? = some q → Reordered p.2 q.2)
    (hperm : l'.Perm l'') (hl : (l.map (·.1.value)).Nodup) (key : String) :
    Option.Rel Reordered (findValue key l) (findValue key l'') := by
  have hkeys' : l.map (·.1.value) = l'.map (·.1.value) := by
    have := congrArg (List.map Node.value) hkeys
    rwa [List.map_map, List.map_map] at this
  have hl' : (l'.map (·.1.value)).Nodup := hkeys' ▸ hl
  have hl'' : (l''.map (·.1.value)).Nodup := (hperm.map _).nodup_iff.mp hl'
  have hsame : findValue key l'' = findValue key l' := by
    apply Option.ext
    intro m
    rw [findValue_eq_some hl'', findValue_eq_some hl']
    simp only [hperm.mem_iff]
  rw [hsame]
  clear hsame hl'' hl' hperm hkeys' hl
  induction l generalizing l' with
  | nil =>
    rw [List.map_nil, eq_comm, List.map_eq_nil_iff] at hkeys
    subst hkeys
    exact .none
  | cons p l ih =>
    cases l' with
    | nil => cases hkeys
    | cons q l' =>
      obtain ⟨hfirst, hrest⟩ := List.cons.inj hkeys
      rw [findValue_cons, findValue_cons, show q.1 = p.1 from hfirst.symm]
      by_cases hkey : p.1.value = key
      · rw [if_pos hkey, if_pos hkey]
        exact .some (hvalues 0 p q rfl rfl)
      · rw [if_neg hkey, if_neg hkey]
        exact ih hrest (fun i p' q' hp hq => hvalues (i+1) p' q' hp hq)

/-- The pairs of a reordered mapping: each comes from one with the same key, and the keys stay distinct. -/
theorem distinctKeys_reordered {tag : String} {content content' : List Node} {l : List (Node × Node)}
    (hkeys : (pairsOf content).map (·.1) = l.map (·.1)) (hperm : l.Perm (pairsOf content'))
    (h : DistinctKeys (.mapping tag content)) : DistinctKeys (.mapping tag content') := by
  have hsame : (l.map (·.1)).Perm ((pairsOf content').map (·.1)) := hperm.map _
  rw [← hkeys] at hsame
  constructor
  · intro q hq
    have hmem : q.1 ∈ (pairsOf content).map (·.1) := hsame.mem_iff.mpr (List.mem_map_of_mem hq)
    obtain ⟨p, hp, heq⟩ := List.mem_map.mp hmem
    exact heq ▸ h.string p hp
  · have hvalues := (hsame.map Node.value).nodup_iff.mp (by
      rw [List.map_map]
      exact h.distinct)
    rwa [List.map_map] at hvalues

theorem pairs_reordered {content content' : List Node} {l : List (Node × Node)}
    (hkeys : (pairsOf content).map (·.1) = l.map (·.1))
    (hvalues : ∀ (i : ℕ) (p q : Node × Node), (pairsOf content)[i]? = some p → l[i]? = some q →
      Reordered p.2 q.2)
    (hperm : l.Perm (pairsOf content')) (q : Node × Node) (hq : q ∈ pairsOf content') :
    ∃ p ∈ pairsOf content, p.1 = q.1 ∧ Reordered p.2 q.2 := by
  obtain ⟨i, hi⟩ := List.mem_iff_getElem?.mp (hperm.mem_iff.mpr hq)
  have hfst := congrArg (·[i]?) hkeys
  simp only [List.getElem?_map, hi, Option.map_some] at hfst
  obtain ⟨p, hp, heq⟩ := Option.map_eq_some_iff.mp hfst
  exact ⟨p, List.mem_of_getElem? hp, heq, hvalues i p q hp hi⟩

theorem elim_reordered {o o' : Option Node} (h : Option.Rel Reordered o o') {absent : β} {present : Node → β}
    (hsome : ∀ m m', o = some m → Reordered m m' → present m' = present m) :
    o'.elim absent present = o.elim absent present := by
  cases h with
  | none => rfl
  | some hmm' => exact hsome _ _ rfl hmm'

theorem fieldValue_reordered {tag : String} {content content' : List Node} {l : List (Node × Node)} {key : String}
    {s : Schema β} {before : β} (hkeys : DistinctKeys (.mapping tag content))
    (hsame : (pairsOf content).map (·.1) = l.map (·.1))
    (hvalues : ∀ (i : ℕ) (p q : Node × Node), (pairsOf content)[i]? = some p → l[i]? = some q →
      Reordered p.2 q.2)
    (hperm : l.Perm (pairsOf content'))
    (h : ∀ m m', findValue key (pairsOf content) = some m → Reordered m m' → s.value m' before = s.value m before) :
    (Node.mapping tag content').fieldValue key s before = (Node.mapping tag content).fieldValue key s before :=
  elim_reordered (findValue_reordered hsame hvalues hperm hkeys.distinct key) h

def DecodesField (d : String × Decoder α) (f : FieldSpec α) : Prop :=
  d.1 = f.key ∧ ∃ decode, d.2 = structField f.get f.set decode ∧ Meets decode f.schema

section Struct
variable {fields : Fields α} {ds : List (String × Decoder α)}

theorem lookup_some {fs : List (FieldSpec α)} (h : List.Forall₂ DecodesField ds fs) {key : String} {d : Decoder α}
    (hd : ds.lookup key = some d) : ∃ f ∈ fs, DecodesField (key, d) f := by
  induction h with
  | nil => cases hd
  | @cons e f ds fs hef _ ih =>
    rw [List.lookup_cons] at hd
    by_cases hkey : key = e.1
    · rw [beq_iff_eq.mpr hkey] at hd
      cases hd
      exact ⟨f, List.mem_cons_self, hkey ▸ hef.1, hef.2⟩
    · rw [beq_false_of_ne hkey] at hd
      obtain ⟨g, hg, hdg⟩ := ih hd
      exact ⟨g, List.mem_cons_of_mem f hg, hdg⟩

theorem lookup_field {fs : List (FieldSpec α)} (h : List.Forall₂ DecodesField ds fs)
    (hdistinct : (fs.map FieldSpec.key).Nodup) {f : FieldSpec α} (hf : f ∈ fs) :
    ∃ decode, ds.lookup f.key = some (structField f.get f.set decode) ∧ Meets decode f.schema := by
  induction h with
  | nil => cases hf
  | @cons e g ds fs heg _ ih =>
    rw [List.map_cons, List.nodup_cons] at hdistinct
    rw [List.lookup_cons]
    rcases List.mem_cons.mp hf with rfl | hmem
    · obtain ⟨hkey, decode, hdecode, hmeets⟩ := heg
      rw [beq_iff_eq.mpr hkey.symm]
      exact ⟨decode, congrArg some hdecode, hmeets⟩
    · have hne : f.key ≠ e.1 := by
        intro heq
        exact hdistinct.1 (List.mem_map.mpr ⟨f, hmem, heq.trans heg.1⟩)
      rw [beq_false_of_ne hne]
      exact ih hdistinct.2 hmem

theorem field_unique (fields : Fields α) {f g : FieldSpec α} (hf : f ∈ fields.all) (hg : g ∈ fields.all)
    (h : f.key = g.key) : f = g := List.inj_on_of_nodup_map fields.distinct hf hg h

/-- The loop over the pairs sets the fields that have a pair and leaves the others alone. -/
theorem steps_fields (h : List.Forall₂ DecodesField ds fields.all) (path : String) (l : List (Node × Node))
    (hl : (l.map (·.1.value)).Nodup) (v w : α) : Steps (fun key => ds.lookup key) path l v w ↔
      (∀ p ∈ l, ∃ f ∈ fields.all, f.key = p.1.value ∧ p.2.Plain ∧ f.schema.Shape p.2) ∧
      ∀ g ∈ fields.all, g.get w = (findValue g.key l).elim (g.get v) (fun m => g.schema.value m (g.get v)) := by
  induction l generalizing v with
  | nil =>
    simp only [Steps, List.not_mem_nil, false_implies, implies_true, true_and]
    constructor
    · rintro rfl g _
      rfl
    · intro hall
      exact fields.determined w v hall
  | cons p l ih =>
    rw [List.map_cons, List.nodup_cons] at hl
    -- after the first pair, with the field of its key set
    have hafter (f : FieldSpec α) (hf : f ∈ fields.all) (hkey : f.key = p.1.value) (x : f.β) :
        (∀ g ∈ fields.all, g.get w = (findValue g.key l).elim (g.get (f.set v x))
          (fun m => g.schema.value m (g.get (f.set v x)))) ↔
        f.get w = x ∧ ∀ g ∈ fields.all, g.key ≠ f.key →
          g.get w = (findValue g.key l).elim (g.get v) (fun m => g.schema.value m (g.get v)) := by
      have hfresh : findValue f.key l = none := findValue_fresh (hkey ▸ hl.1)
      constructor
      · intro hall
        refine ⟨?_, ?_⟩
        · have hown := hall f hf
          rwa [hfresh, Option.elim_none, f.get_set] at hown
        · intro g hg hne
          have hother := hall g hg
          rwa [fields.independent f hf g hg hne.symm] at hother
      · rintro ⟨hown, hothers⟩ g hg
        by_cases hgf : g.key = f.key
        · obtain rfl := field_unique fields hg hf hgf
          rw [hfresh, Option.elim_none, g.get_set]
          exact hown
        · rw [fields.independent f hf g hg (Ne.symm hgf)]
          exact hothers g hg hgf
    have hfind (g : FieldSpec α) (hg : g.key ≠ p.1.value) : findValue g.key (p :: l) = findValue g.key l := by
      rw [findValue_cons, if_neg hg.symm]
    constructor
    · rintro ⟨d, u, hd, hu, hsteps⟩
      obtain ⟨f, hf, hkey, decode, rfl, hmeets⟩ := lookup_some h hd
      obtain ⟨x, hx, rfl⟩ := map_eq_ok.mp hu
      obtain ⟨hplain, hshape, rfl⟩ := (hmeets.decodes _ _ _ _).mp hx
      obtain ⟨hrest, hall⟩ := (ih hl.2 _).mp hsteps
      obtain ⟨hown, hothers⟩ := (hafter f hf hkey.symm _).mp hall
      refine ⟨List.forall_mem_cons.mpr ⟨⟨f, hf, hkey.symm, hplain, hshape⟩, hrest⟩, ?_⟩
      intro g hg
      by_cases hgf : g.key = f.key
      · obtain rfl := field_unique fields hg hf hgf
        rw [findValue_cons, if_pos hkey]
        exact hown
      · rw [hfind g (fun heq => hgf (heq.trans hkey))]
        exact hothers g hg hgf
    · rintro ⟨hall, hvalues⟩
      obtain ⟨⟨f, hf, hkey, hplain, hshape⟩, hrest⟩ := List.forall_mem_cons.mp hall
      obtain ⟨decode, hlookup, hmeets⟩ := lookup_field h fields.distinct hf
      refine ⟨_, f.set v (f.schema.value p.2 (f.get v)), hkey ▸ hlookup, ?_, ?_⟩
      · exact map_eq_ok.mpr ⟨_, (hmeets.decodes _ _ _ _).mpr ⟨hplain, hshape, rfl⟩, rfl⟩
      · refine (ih hl.2 _).mpr ⟨hrest, (hafter f hf hkey _).mpr ⟨?_, ?_⟩⟩
        · have hown := hvalues f hf
          rwa [findValue_cons, if_pos hkey.symm] at hown
        · intro g hg hne
          have hother := hvalues g hg
          rwa [hfind g (fun heq => hne (heq.trans hkey.symm))] at hother

theorem plain_mapping (n : Node) (h : n.isMapping = true) :
    n.Plain ↔ n.isNull = false ∧ ∀ p ∈ n.pairs, p.2.Plain := by
  obtain ⟨tag, content, rfl⟩ := mapping_of h
  rw [Node.plain_iff]
  exact ⟨fun hn => ⟨hn.1, hn.2.1⟩, fun hn => ⟨hn.1, hn.2, fun i hi => absurd hi List.not_mem_nil⟩⟩

theorem stringKeys_mapping (n : Node) (h : n.isMapping = true) (hkeys : DistinctKeys n)
    (hvalues : ∀ p ∈ n.pairs, p.2.StringKeys) : n.StringKeys := by
  obtain ⟨tag, content, rfl⟩ := mapping_of h
  rw [Node.stringKeys_iff]
  exact ⟨hkeys.string, hvalues, fun i hi => absurd hi List.not_mem_nil⟩

/-- A struct is decoded field by field. `start` is what is set before the loop. -/
theorem meets_struct (start : α → α) (value : Node → α → α) (h : List.Forall₂ DecodesField ds fields.all)
    (hvalue : ∀ n v, ∀ f ∈ fields.all, f.get (value n v) = n.fieldValue f.key f.schema (f.get (start v))) :
    Meets (decodeMapping start (fun key => ds.lookup key)) (structSchema fields value) := by
  have hfield (f : FieldSpec α) (hf : f ∈ fields.all) : ∃ decode, Meets decode f.schema := by
    obtain ⟨decode, -, hmeets⟩ := lookup_field h fields.distinct hf
    exact ⟨decode, hmeets⟩
  refine ⟨?_, ?_, ?_⟩
  · intro n path v w
    rw [decodeMapping_ok]
    constructor
    · rintro ⟨hnull, hmapping, hkeys, hsteps⟩
      obtain ⟨hpairs, hw⟩ := (steps_fields h path n.pairs hkeys.distinct (start v) w).mp hsteps
      refine ⟨(plain_mapping n hmapping).mpr ⟨hnull, ?_⟩, ⟨hmapping, hkeys, ?_⟩, ?_⟩
      · intro p hp
        obtain ⟨f, -, -, hplain, -⟩ := hpairs p hp
        exact hplain
      · intro p hp
        obtain ⟨f, hf, hkey, -, hshape⟩ := hpairs p hp
        exact ⟨f, hf, hkey, hshape⟩
      · apply fields.determined
        intro f hf
        exact (hw f hf).trans (hvalue n v f hf).symm
    · rintro ⟨hplain, ⟨hmapping, hkeys, hpairs⟩, rfl⟩
      obtain ⟨hnull, hvalues⟩ := (plain_mapping n hmapping).mp hplain
      refine ⟨hnull, hmapping, hkeys, (steps_fields h path n.pairs hkeys.distinct (start v) _).mpr ⟨?_, ?_⟩⟩
      · intro p hp
        obtain ⟨f, hf, hkey, hshape⟩ := hpairs p hp
        exact ⟨f, hf, hkey, hvalues p hp, hshape⟩
      · intro f hf
        exact hvalue n v f hf
  · rintro n ⟨hmapping, hkeys, hpairs⟩
    apply stringKeys_mapping n hmapping hkeys
    intro p hp
    obtain ⟨f, hf, -, hshape⟩ := hpairs p hp
    obtain ⟨decode, hmeets⟩ := hfield f hf
    exact hmeets.keys p.2 hshape
  · rintro n n' v hn ⟨hmapping, hkeys, hpairs⟩
    cases hn with
    | same => exact ⟨⟨hmapping, hkeys, hpairs⟩, rfl⟩
    | sequence => cases hmapping
    | mapping tag content content' l hsame hvalues hperm =>
      refine ⟨⟨rfl, distinctKeys_reordered hsame hperm hkeys, ?_⟩, ?_⟩
      · intro q hq
        obtain ⟨p, hp, heq, hpq⟩ := pairs_reordered hsame hvalues hperm q hq
        obtain ⟨f, hf, hkey, hshape⟩ := hpairs p hp
        obtain ⟨decode, hmeets⟩ := hfield f hf
        exact ⟨f, hf, heq ▸ hkey, (hmeets.unordered _ _ (f.get v) hpq hshape).1⟩
      · apply fields.determined
        intro f hf
        change f.get (value _ v) = f.get (value _ v)
        rw [hvalue _ v f hf, hvalue _ v f hf]
        apply fieldValue_reordered hkeys hsame hvalues hperm
        intro m m' hm hmm'
        obtain ⟨p, hp, hkey, rfl⟩ := (findValue_eq_some hkeys.distinct m).mp hm
        obtain ⟨g, hg, hgkey, hshape⟩ := hpairs p hp
        obtain rfl := field_unique fields hg hf (hgkey.trans hkey)
        obtain ⟨decode, hmeets⟩ := hfield g hg
        exact (hmeets.unordered _ _ _ hmm' hshape).2

end Struct

section Map
variable {decode : Decoder β} {s : Schema β} (zero : β)

def insertField (decode : Decoder β) (zero : β) (key : String) : Decoder (Option (OrdMap String β)) :=
  fun n path h => (decode n path zero).map (fun value => some ((h.getD ∅).insert key value))

theorem steps_map (h : Meets decode s) (path : String) (l : List (Node × Node)) (m : OrdMap String β)
    (w : Option (OrdMap String β)) : Steps (fun key => some (insertField decode zero key)) path l (some m) w ↔
      (∀ p ∈ l, p.2.Plain ∧ s.Shape p.2) ∧
      w = some (l.foldl (fun m p => m.insert p.1.value (s.value p.2 zero)) m) := by
  induction l generalizing m with
  | nil => simp [Steps]
  | cons p l ih =>
    rw [List.forall_mem_cons, List.foldl_cons]
    constructor
    · rintro ⟨d, u, hd, hu, hsteps⟩
      cases hd
      obtain ⟨x, hx, rfl⟩ := map_eq_ok.mp hu
      obtain ⟨hplain, hshape, rfl⟩ := (h.decodes _ _ _ _).mp hx
      obtain ⟨hrest, hw⟩ := (ih _).mp hsteps
      exact ⟨⟨⟨hplain, hshape⟩, hrest⟩, hw⟩
    · rintro ⟨⟨⟨hplain, hshape⟩, hrest⟩, hw⟩
      refine ⟨_, _, rfl, ?_, (ih _).mpr ⟨hrest, hw⟩⟩
      exact map_eq_ok.mpr ⟨_, (h.decodes _ _ _ _).mpr ⟨hplain, hshape, rfl⟩, rfl⟩

theorem get?_insertAll (value : Node → β) (l : List (Node × Node)) (hl : (l.map (·.1.value)).Nodup)
    (m : OrdMap String β) (key : String) :
    (l.foldl (fun m p => m.insert p.1.value (value p.2)) m).get? key =
      (findValue key l).elim (m.get? key) (fun x => some (value x)) := by
  induction l generalizing m with
  | nil => rfl
  | cons p l ih =>
    rw [List.map_cons, List.nodup_cons] at hl
    rw [List.foldl_cons, ih hl.2, findValue_cons, OrdMap.get?_insert]
    by_cases hkey : p.1.value = key
    · rw [if_pos hkey, if_pos hkey.symm, findValue_fresh (hkey ▸ hl.1), Option.elim_none, Option.elim_some]
    · rw [if_neg hkey, if_neg (Ne.symm hkey)]

theorem meets_map (h : Meets decode s) :
    Meets (decodeMapping (fun _ => some ∅) (fun key => some (insertField decode zero key))) (mapSchema zero s) := by
  refine ⟨?_, ?_, ?_⟩
  · intro n path v w
    rw [decodeMapping_ok, steps_map zero h]
    constructor
    · rintro ⟨hnull, hmapping, hkeys, hpairs, rfl⟩
      refine ⟨(plain_mapping n hmapping).mpr ⟨hnull, fun p hp => (hpairs p hp).1⟩, ?_, rfl⟩
      exact ⟨hmapping, hkeys, fun p hp => (hpairs p hp).2⟩
    · rintro ⟨hplain, ⟨hmapping, hkeys, hpairs⟩, rfl⟩
      obtain ⟨hnull, hvalues⟩ := (plain_mapping n hmapping).mp hplain
      exact ⟨hnull, hmapping, hkeys, fun p hp => ⟨hvalues p hp, hpairs p hp⟩, rfl⟩
  · rintro n ⟨hmapping, hkeys, hpairs⟩
    exact stringKeys_mapping n hmapping hkeys (fun p hp => h.keys p.2 (hpairs p hp))
  · rintro n n' v hn ⟨hmapping, hkeys, hpairs⟩
    cases hn with
    | same => exact ⟨⟨hmapping, hkeys, hpairs⟩, rfl⟩
    | sequence => cases hmapping
    | mapping tag content content' l hsame hvalues hperm =>
      have hkeys' := distinctKeys_reordered hsame hperm hkeys
      refine ⟨⟨rfl, hkeys', ?_⟩, congrArg some (OrdMap.ext_get? _ _ ?_)⟩
      · intro q hq
        obtain ⟨p, hp, -, hpq⟩ := pairs_reordered hsame hvalues hperm q hq
        exact (h.unordered _ _ zero hpq (hpairs p hp)).1
      · intro key
        rw [get?_insertAll (fun m => s.value m zero) _ hkeys'.distinct,
          get?_insertAll (fun m => s.value m zero) _ hkeys.distinct]
        apply elim_reordered (findValue_reordered hsame hvalues hperm hkeys.distinct key)
        intro m m' hm hmm'
        obtain ⟨p, hp, -, rfl⟩ := (findValue_eq_some hkeys.distinct m).mp hm
        rw [(h.unordered _ _ zero hmm' (hpairs p hp)).2]

end Map

end Faultline
