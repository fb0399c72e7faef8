import Faultline.ConfigRules
import Faultline.ConfigYaml

/-! `Encode` followed by the strict decoder. A printed node is read back field by field; what comes
back is the configuration with empty header maps in place of nil ones. -/
namespace Faultline

section Codec
variable {α β : Type} (y : Yaml)

/-- The node is not a null, the library can print what is left of it after pruning, and the
decoder reads that into a value. -/
structure Codes (decode : Decoder α) (n : Node) (v w : α) : Prop where
  notNull : n.tag ≠ "!!null"
  notAlias : n.isAlias = false
  encoded : Encoded y (prune n)
  reads : ∀ path, decode (prune n) path v = .ok w

def CodesField (field : String → Option (Decoder α)) (key : String) (n : Node) (v w : α) : Prop :=
  n.tag = "!!null" ∧ w = v ∨ ∃ decode, field key = some decode ∧ Codes y decode n v w

def CodesFields (field : String → Option (Decoder α)) : List (String × Node) → α → α → Prop
  | [], v, w => v = w
  | (key, n) :: fields, v, w => ∃ u, CodesField y field key n v u ∧ CodesFields field fields u w

def pruneFields (fields : List (String × Node)) : List (String × Node) :=
  (fields.filter (fun f => f.2.tag ≠ "!!null")).map (fun f => (f.1, prune f.2))

theorem prune_tag (n : Node) : (prune n).tag = n.tag := by
  cases n <;> simp [prune, Node.tag]

theorem prune_isAlias (n : Node) : (prune n).isAlias = n.isAlias := by
  cases n <;> simp [prune, Node.isAlias]

theorem prunePairs_fieldNodes (fields : List (String × Node)) :
    prunePairs (fieldNodes fields) = fieldNodes (pruneFields fields) := by
  induction fields with
  | nil => simp [fieldNodes, prunePairs, pruneFields]
  | cons f fields ih =>
    obtain ⟨key, n⟩ := f
    by_cases hnull : n.tag = "!!null"
    · simpa [fieldNodes, prunePairs, pruneFields, hnull] using ih
    · simpa [fieldNodes, prunePairs, pruneFields, hnull] using ih

theorem prune_encodeStruct (fields : List (String × Node)) :
    prune (encodeStruct fields) = encodeStruct (pruneFields fields) := by
  rw [encodeStruct, prune, prunePairs_fieldNodes, encodeStruct]

theorem CodesFields.encoded {field : String → Option (Decoder α)} {fields : List (String × Node)} {v w : α}
    (h : CodesFields y field fields v w) : ∀ f ∈ pruneFields fields, Encoded y f.2 := by
  induction fields generalizing v with
  | nil => intro f hf; cases hf
  | cons f fields ih =>
    obtain ⟨key, n⟩ := f
    obtain ⟨u, hfield, hrest⟩ := h
    intro g hg
    rcases hfield with ⟨hnull, -⟩ | ⟨decode, -, hcodes⟩
    · simp only [pruneFields, List.filter_cons, hnull, ne_eq, not_true_eq_false, decide_false,
        Bool.false_eq_true, if_false] at hg
      exact ih hrest g hg
    · simp only [pruneFields, List.filter_cons, ne_eq, hcodes.notNull, not_false_eq_true, decide_true,
        if_true, List.map_cons, List.mem_cons] at hg
      rcases hg with rfl | hg
      · exact hcodes.encoded
      · exact ih hrest g hg

theorem decodePairs_fields {field : String → Option (Decoder α)} (path : String)
    {fields : List (String × Node)} {v w : α} (seen : List String) (h : CodesFields y field fields v w)
    (hnodup : (fields.map (·.1)).Nodup) (hseen : ∀ f ∈ fields, f.1 ∉ seen) :
    decodePairs field path seen (fieldNodes (pruneFields fields)) v = .ok w := by
  induction fields generalizing v seen with
  | nil =>
    cases h
    simp [pruneFields, fieldNodes, decodePairs]
  | cons f fields ih =>
    obtain ⟨key, n⟩ := f
    obtain ⟨u, hfield, hrest⟩ := h
    rw [List.map_cons, List.nodup_cons] at hnodup
    rcases hfield with ⟨hnull, rfl⟩ | ⟨decode, hdecode, hcodes⟩
    · -- a pruned field leaves the struct and the list of fields seen
      have hskip : pruneFields ((key, n) :: fields) = pruneFields fields := by
        simp [pruneFields, hnull]
      rw [hskip]
      exact ih seen hrest hnodup.2 (fun g hg => hseen g (List.mem_cons_of_mem _ hg))
    · have hkeep : pruneFields ((key, n) :: fields) = (key, prune n) :: pruneFields fields := by
        simp [pruneFields, hcodes.notNull]
      have hnew : key ∉ seen := hseen (key, n) List.mem_cons_self
      have hnext := ih (key :: seen) hrest hnodup.2 (by
        intro g hg hmem
        rcases List.mem_cons.mp hmem with heq | hmem
        · exact hnodup.1 (List.mem_map.mpr ⟨g, hg, heq⟩)
        · exact hseen g (List.mem_cons_of_mem _ hg) hmem)
      rw [hkeep, fieldNodes, decodePairs]
      simp only [bind_eq_ok, reject_eq_ok, exists_const, Node.str, Node.tag, Node.value, ne_eq,
        not_true_eq_false, not_false_eq_true, hnew, hdecode, true_and]
      exact ⟨u, hcodes.reads _, hnext⟩

theorem codes_struct {start : α → α} {field : String → Option (Decoder α)} {fields : List (String × Node)}
    {v w : α} (h : CodesFields y field fields (start v) w) (hnodup : (fields.map (·.1)).Nodup) :
    Codes y (decodeMapping start field) (encodeStruct fields) v w := by
  have htag : ("!!map" : String) ≠ "!!null" := by decide
  refine ⟨htag, rfl, ?_, ?_⟩
  · rw [prune_encodeStruct]
    exact Encoded.mapping _ h.encoded
  · intro path
    rw [prune_encodeStruct]
    exact decodePairs_fields y path [] h hnodup (fun _ _ => List.not_mem_nil)

variable {y}

theorem Codes.field {decode : Decoder β} {n : Node} {get : α → β} {set : α → β → α} {v : α} {x : β}
    (h : Codes y decode n (get v) x) : Codes y (structField get set decode) n v (set v x) := by
  refine ⟨h.notNull, h.notAlias, h.encoded, fun path => ?_⟩
  rw [structField, h.reads path]
  rfl

theorem codes_field {field : String → Option (Decoder α)} {key : String} {decode : Decoder β} {n : Node}
    {get : α → β} {set : α → β → α} {v : α} {x : β} (hfield : field key = some (structField get set decode))
    (h : Codes y decode n (get v) x) : CodesField y field key n v (set v x) :=
  Or.inr ⟨_, hfield, h.field⟩

/-- A pointer field; a nil pointer leaves the field as it was. -/
theorem codes_pointer {field : String → Option (Decoder α)} {key : String} {decode : Decoder β} {zero : β}
    {encode : β → Node} {get : α → Option β} {set : α → Option β → α} {v : α} {x z : Option β}
    (hfield : field key = some (structField get set (decodePointer zero decode))) (hnone : set v none = v)
    (h : Option.Rel (fun a b => Codes y decode (encode a) zero b) x z) :
    CodesField y field key (encodePointer encode x) v (set v z) := by
  cases h with
  | none => exact Or.inl ⟨rfl, hnone⟩
  | @some a b h =>
    apply codes_field hfield
    refine ⟨h.notNull, h.notAlias, h.encoded, fun path => ?_⟩
    have hpresent : ¬ ((prune (encode a)).isAlias = true ∨ (prune (encode a)).tag = "!!null") := by
      rw [prune_isAlias, prune_tag, h.notAlias]
      simp [h.notNull]
    rw [encodePointer, decodePointer, notNull, if_neg hpresent, h.reads path]
    rfl

theorem decodeItems_codes {decode : Decoder α} {zero : α} {encode : β → Node} (path : String) (i : ℕ)
    {xs : List β} {ws : List α} (h : List.Forall₂ (fun x w => Codes y decode (encode x) zero w) xs ws) :
    decodeItems zero decode path i (pruneItems (xs.map encode)) = .ok ws := by
  induction h generalizing i with
  | nil => simp [pruneItems, decodeItems]
  | cons hx _ ih =>
    simp only [List.map_cons, pruneItems, decodeItems, bind_eq_ok, pure_eq_ok]
    exact ⟨_, hx.reads _, _, ih (i+1), rfl⟩

theorem encoded_items {decode : Decoder α} {zero : α} {encode : β → Node} {xs : List β} {ws : List α}
    (h : List.Forall₂ (fun x w => Codes y decode (encode x) zero w) xs ws) :
    ∀ n ∈ pruneItems (xs.map encode), Encoded y n := by
  induction h with
  | nil => simp [pruneItems]
  | cons hx _ ih =>
    simp only [List.map_cons, pruneItems]
    exact List.forall_mem_cons.mpr ⟨hx.encoded, ih⟩

theorem codes_slice {decode : Decoder α} {zero : α} {encode : β → Node} {xs : List β} {ws v : List α}
    (h : List.Forall₂ (fun x w => Codes y decode (encode x) zero w) xs ws) :
    Codes y (decodeSlice zero decode) (.sequence "!!seq" (xs.map encode)) v ws := by
  have htag : ("!!seq" : String) ≠ "!!null" := by decide
  refine ⟨htag, rfl, ?_, fun path => ?_⟩
  · rw [prune]
    exact Encoded.sequence _ (encoded_items h)
  · rw [prune]
    exact decodeItems_codes path 0 h

theorem codes_scalar {tags : List String} {decode : Node → Option α} {tag text : String} {v a : α}
    (hnull : "!!null" ∉ tags) (htag : tag ∈ tags) (hencoded : Encoded y (.scalar tag text))
    (hdecode : decode (.scalar tag text) = some a) :
    Codes y (decodeScalar tags decode) (.scalar tag text) v a := by
  have hne : tag ≠ "!!null" := fun h => hnull (h ▸ htag)
  refine ⟨hne, rfl, ?_, fun path => ?_⟩
  · rw [prune]
    exact hencoded
  · simp [prune, decodeScalar, notNull, Node.isAlias, Node.tag, hne, htag, hdecode]

end Codec

/-! The scalars and structs of a configuration. -/

theorem pointer_self {β : Type} {y : Yaml} {decode : Decoder β} {zero : β} {encode : β → Node}
    (h : ∀ a, Codes y decode (encode a) zero a) (x : Option β) :
    Option.Rel (fun a b => Codes y decode (encode a) zero b) x x := by
  cases x with
  | none => exact Option.Rel.none
  | some a => exact Option.Rel.some (h a)

theorem exists_forall₂ {α β : Type} {R S : α → β → Prop} (h : ∀ a, ∃ b, R a b ∧ S a b) (l : List α) :
    ∃ m, List.Forall₂ R l m ∧ List.Forall₂ S l m := by
  induction l with
  | nil => exact ⟨[], .nil, .nil⟩
  | cons a l ih =>
    obtain ⟨b, hR, hS⟩ := h a
    obtain ⟨m, hRs, hSs⟩ := ih
    exact ⟨b :: m, .cons hR hRs, .cons hS hSs⟩

section Config
variable {y : Yaml} (hy : y.Faithful)
include hy

theorem codes_string (s v : String) : Codes y (decodeString y) (.str s) v s :=
  codes_scalar (by decide) (by decide) (Encoded.str s) (hy.string s)

theorem codes_duration (d v : Int64) : Codes y (decodeDuration y) (encodeDuration y d) v d := by
  have hne : ("!!str" : String) ≠ "!!null" := by decide
  refine ⟨hne, rfl, ?_, fun path => ?_⟩
  · rw [encodeDuration, Node.str, prune]
    exact Encoded.str _
  · simp [encodeDuration, Node.str, prune, decodeDuration, notNull, Node.isAlias, Node.tag, Node.value,
      hy.duration d]

theorem codes_bool (b v : Bool) : Codes y (decodeBool y) (y.encodeBool b) v b := by
  obtain ⟨text, hencode, hdecode⟩ := hy.bool b
  rw [hencode]
  exact codes_scalar (by decide) (by decide) (hencode ▸ Encoded.bool b) hdecode

theorem codes_int (n v : Int64) : Codes y (decodeInt y) (y.encodeInt n) v n := by
  obtain ⟨text, hencode, hdecode⟩ := hy.int n
  rw [hencode]
  exact codes_scalar (by decide) (by decide) (hencode ▸ Encoded.int n) hdecode

theorem codes_uint (n v : UInt64) : Codes y (decodeUint y) (y.encodeUint n) v n := by
  obtain ⟨text, hencode, hdecode⟩ := hy.uint n
  rw [hencode]
  exact codes_scalar (by decide) (by decide) (hencode ▸ Encoded.uint n) hdecode

theorem codes_float (x v : Float64) : ∃ z, SameFloat x z ∧ Codes y (decodeFloat y) (y.encodeFloat x) v z := by
  obtain ⟨tag, htag, text, z, hencode, hdecode, hsame⟩ := hy.float x
  rw [hencode]
  exact ⟨z, hsame, codes_scalar (by decide) htag (hencode ▸ Encoded.float x) hdecode⟩

theorem codes_runtime (r v : Runtime) : Codes y (decodeRuntime y) (encodeRuntime y r) v r := by
  apply codes_struct y
  · exact ⟨_, codes_field rfl (codes_int hy _ _), _, codes_field rfl (codes_duration hy _ _), rfl⟩
  · simp

theorem codes_listenerTLS (t v : ListenerTLS) : Codes y (decodeListenerTLS y) (encodeListenerTLS t) v t := by
  apply codes_struct y
  · exact ⟨_, codes_field rfl (codes_string hy _ _), _, codes_field rfl (codes_string hy _ _),
      _, codes_field rfl (codes_string hy _ _), rfl⟩
  · simp

theorem codes_upstreamTLS (t v : UpstreamTLS) : Codes y (decodeUpstreamTLS y) (encodeUpstreamTLS t) v t := by
  apply codes_struct y
  · exact ⟨_, codes_field rfl (codes_string hy _ _), _, codes_field rfl (codes_string hy _ _),
      _, codes_field rfl (codes_string hy _ _), rfl⟩
  · simp

theorem codes_pairs (es : List (String × String)) (headers : OrdMap String String) :
    CodesFields y (fun key => some (fun n path h => (decodeString y n path "").map
        (fun value => some ((Option.getD h ∅).insert key value))))
      (es.map (fun e => (e.1, .str e.2))) (some headers)
      (some (es.foldl (fun acc e => acc.insert e.1 e.2) headers)) := by
  induction es generalizing headers with
  | nil => exact rfl
  | cons e es ih =>
    have hvalue := codes_string hy e.2 ""
    refine ⟨some (headers.insert e.1 e.2), Or.inr ⟨_, rfl, ?_⟩, ih _⟩
    refine ⟨hvalue.notNull, hvalue.notAlias, hvalue.encoded, fun path => ?_⟩
    rw [hvalue.reads path]
    rfl

theorem codes_headers (h v : Option (OrdMap String String)) :
    Codes y (decodeHeaders y) (encodeHeaders h) v (some (h.getD ∅)) := by
  apply codes_struct y
  · have hpairs := codes_pairs hy (h.getD ∅).entries ∅
    rw [OrdMap.foldl_insert_entries] at hpairs
    exact hpairs
  · rw [List.map_map]
    exact List.pairwise_map.mpr ((h.getD ∅).sorted.imp ne_of_lt)

/-- A nil header map comes back as an empty one. -/
def Matcher.fill (m : Matcher) : Matcher := { m with headers := some (m.headers.getD ∅) }

theorem codes_matcher (m v : Matcher) : Codes y (decodeMatcher y) (encodeMatcher m) v m.fill := by
  apply codes_struct y
  · exact ⟨_, codes_field rfl (codes_string hy _ _), _, codes_field rfl (codes_string hy _ _),
      _, codes_field rfl (codes_string hy _ _), _, codes_field rfl (codes_string hy _ _),
      _, codes_field rfl (codes_headers hy _ _), rfl⟩
  · simp

def Selector.Reread (s t : Selector) : Prop :=
  Option.Rel SameFloat s.probability t.probability ∧ t.nth = s.nth ∧ t.every = s.every

theorem codes_probability (x : Option Float64) : ∃ z, Option.Rel SameFloat x z ∧
    Option.Rel (fun a b => Codes y (decodeFloat y) (y.encodeFloat a) Float64.zero b) x z := by
  cases x with
  | none => exact ⟨none, Option.Rel.none, Option.Rel.none⟩
  | some a =>
    obtain ⟨b, hsame, hcodes⟩ := codes_float hy a Float64.zero
    exact ⟨some b, Option.Rel.some hsame, Option.Rel.some hcodes⟩

theorem codes_selector (s : Selector) :
    ∃ t, s.Reread t ∧ Codes y (decodeSelector y) (encodeSelector y s) Selector.zero t := by
  obtain ⟨z, hsame, hcodes⟩ := codes_probability hy s.probability
  refine ⟨⟨z, s.nth, s.every⟩, ⟨hsame, rfl, rfl⟩, ?_⟩
  apply codes_struct y
  · exact ⟨_, codes_pointer rfl rfl hcodes,
      _, codes_pointer rfl rfl (pointer_self (fun a => codes_uint hy a 0) s.nth),
      _, codes_pointer rfl rfl (pointer_self (fun a => codes_uint hy a 0) s.every), rfl⟩
  · simp

theorem codes_fault (f : Fault) : Codes y (decodeFault y) (encodeFault y f) Fault.zero f := by
  have hduration (x : Option Int64) := pointer_self (fun a => codes_duration hy a 0) x
  have hint (x : Option Int64) := pointer_self (fun a => codes_int hy a 0) x
  apply codes_struct y
  · exact ⟨_, codes_field rfl (codes_string hy f.phase _), _, codes_field rfl (codes_string hy f.action _),
      _, codes_pointer rfl rfl (hduration f.duration), _, codes_pointer rfl rfl (hduration f.maxDuration),
      _, codes_pointer rfl rfl (hint f.status),
      _, codes_pointer rfl rfl (pointer_self (fun a => codes_string hy a "") f.body),
      _, codes_field rfl (codes_string hy f.direction _), _, codes_pointer rfl rfl (hint f.bytes),
      _, codes_pointer rfl rfl (hint f.bytesPerSecond), _, codes_pointer rfl rfl (hint f.afterBytes),
      _, codes_pointer rfl rfl (hduration f.afterDuration),
      _, codes_field rfl (codes_string hy f.triggerDirection _), rfl⟩
  · simp

def Rule.Reread (r t : Rule) : Prop := t = { r.fill with select := t.select } ∧ r.select.Reread t.select

theorem codes_rule (r : Rule) :
    ∃ t, r.Reread t ∧ Codes y (decodeRule y) (encodeRule y r) Rule.zero t := by
  obtain ⟨select, hreread, hselect⟩ := codes_selector hy r.select
  refine ⟨{ r.fill with select := select }, ⟨rfl, hreread⟩, ?_⟩
  apply codes_struct y
  · exact ⟨_, codes_field rfl (codes_string hy r.id _), _, codes_field rfl (codes_bool hy r.enabled _),
      _, codes_field rfl (codes_matcher hy r.matcher _), _, codes_field rfl hselect,
      _, codes_field rfl (codes_fault hy r.fault), rfl⟩
  · simp

def Proxy.Reread (p q : Proxy) : Prop :=
  ∃ rules, q = { p with rules := some rules } ∧ List.Forall₂ Rule.Reread p.ruleList rules

theorem codes_proxy (p : Proxy) :
    ∃ q, p.Reread q ∧ Codes y (decodeProxy y) (encodeProxy y p) Proxy.zero q := by
  obtain ⟨rules, hreread, hrules⟩ := exists_forall₂ (codes_rule hy) p.ruleList
  refine ⟨{ p with rules := some rules }, ⟨rules, rfl, hreread⟩, ?_⟩
  apply codes_struct y
  · exact ⟨_, codes_field rfl (codes_string hy p.id _), _, codes_field rfl (codes_string hy p.protocol _),
      _, codes_field rfl (codes_string hy p.upstreamProtocol _), _, codes_field rfl (codes_string hy p.listen _),
      _, codes_field rfl (codes_string hy p.upstream _),
      _, codes_pointer rfl rfl (pointer_self (fun t => codes_listenerTLS hy t _) p.tls),
      _, codes_pointer rfl rfl (pointer_self (fun t => codes_upstreamTLS hy t _) p.upstreamTLS),
      _, codes_field rfl (codes_slice hrules), rfl⟩
  · simp

def Config.Reread (c c' : Config) : Prop :=
  c' = { c with proxies := c'.proxies } ∧ List.Forall₂ Proxy.Reread c.proxies c'.proxies

theorem codes_config (c : Config) :
    ∃ c', c.Reread c' ∧ Codes y (decodeConfig y) (encodeConfig y c) Config.zero c' := by
  obtain ⟨proxies, hreread, hproxies⟩ := exists_forall₂ (codes_proxy hy) c.proxies
  refine ⟨{ c with proxies := proxies }, ⟨rfl, hreread⟩, ?_⟩
  apply codes_struct y
  · exact ⟨_, codes_field rfl (codes_string hy c.apiVersion _), _, codes_field rfl (codes_uint hy c.seed _),
      _, codes_field rfl (codes_runtime hy c.runtime _), _, codes_field rfl (codes_slice hproxies), rfl⟩
  · simp

theorem decode_encode (c : Config) : ∃ c', c.Reread c' ∧
    decodeDocument y (decodeConfig y) (encode y c) Config.zero = .ok c' := by
  obtain ⟨c', hreread, hcodes⟩ := codes_config hy c
  refine ⟨c', hreread, ?_⟩
  rw [decodeDocument, encode, hy.documents _ hcodes.encoded]
  exact hcodes.reads ""

end Config

/-! What reading back keeps. -/

theorem Selector.Reread.eq {s t : Selector} (h : s.Reread t) (hs : SelectorValid s) : t = s := by
  obtain ⟨hprobability, hnth, hevery⟩ := h
  have hsame : t.probability = s.probability := by
    cases hx : s.probability with
    | none =>
      rw [hx] at hprobability
      cases hz : t.probability with
      | none => rfl
      | some z =>
        rw [hz] at hprobability
        cases hprobability
    | some x =>
      rw [hx] at hprobability
      cases hz : t.probability with
      | none =>
        rw [hz] at hprobability
        cases hprobability
      | some z =>
        rw [hz] at hprobability
        cases hprobability with
        | some hfloat =>
          obtain ⟨hnan, -, -, -, hzero⟩ := hs.probability x hx
          rw [hfloat.same hnan hzero]
  cases s
  cases t
  simp only at hsame hnth hevery
  rw [hsame, hnth, hevery]

end Faultline
