import Faultline.ConfigNormal
import Faultline.Executable
import Faultline.JsonText

/-! What `Equal` and `RestartCompatible` compare. The serialized form tells configurations apart,
the sort by ID makes it independent of the order of the proxies, and so two documents have the
same fingerprint exactly when they are the same up to that order. -/
namespace Faultline

/-! The shape of a serialized configuration. -/

def matcherShape : Set Json :=
  objects (fun key => if key = "Headers" then nullable (objects fun _ => strings) else strings)

def selectorShape : Set Json :=
  objects (fun key => if key = "Probability" then nullable floats else nullable integers)

def faultShape : Set Json :=
  objects (fun key => if key ∈ ["Phase", "Action", "Direction", "TriggerDirection"] then strings
    else if key = "Body" then nullable strings else nullable integers)

def ruleShape : Set Json :=
  objects (fun key => if key = "ID" then strings else if key = "Enabled" then booleans
    else if key = "Match" then matcherShape else if key = "Select" then selectorShape else faultShape)

def proxyShape : Set Json :=
  objects (fun key => if key = "TLS" ∨ key = "UpstreamTLS" then nullable (objects fun _ => strings)
    else if key = "Rules" then nullable (arrays ruleShape) else strings)

def configShape : Set Json :=
  objects (fun key => if key = "APIVersion" then strings else if key = "Seed" then integers
    else if key = "Runtime" then objects (fun _ => integers) else arrays proxyShape)

def documentShape : Set Json :=
  objects (fun key => if key = "Config" then configShape else objects fun _ => arrays integers)

section Shape
variable {floatText : Float64 → Option (List Char)}

theorem documentShape_code (hf : FloatText floatText) :
    PrefixCode jsonStop (Json.print floatText) documentShape := by
  have hstrings : PrefixCode jsonStop (Json.print floatText) strings := strings_code
  have hintegers : PrefixCode jsonStop (Json.print floatText) integers := integers_code
  have hmatcher : PrefixCode jsonStop (Json.print floatText) matcherShape := by
    apply objects_code
    intro key
    split_ifs
    · exact nullable_code hf (objects_code fun _ => hstrings)
    · exact hstrings
  have hselector : PrefixCode jsonStop (Json.print floatText) selectorShape := by
    apply objects_code
    intro key
    split_ifs
    · exact nullable_code hf (floats_code hf)
    · exact nullable_code hf hintegers
  have hfault : PrefixCode jsonStop (Json.print floatText) faultShape := by
    apply objects_code
    intro key
    split_ifs
    · exact hstrings
    · exact nullable_code hf hstrings
    · exact nullable_code hf hintegers
  have hrule : PrefixCode jsonStop (Json.print floatText) ruleShape := by
    apply objects_code
    intro key
    split_ifs
    · exact hstrings
    · exact booleans_code
    · exact hmatcher
    · exact hselector
    · exact hfault
  have hproxy : PrefixCode jsonStop (Json.print floatText) proxyShape := by
    apply objects_code
    intro key
    split_ifs
    · exact nullable_code hf (objects_code fun _ => hstrings)
    · exact nullable_code hf (arrays_code hf hrule)
    · exact hstrings
  have hconfig : PrefixCode jsonStop (Json.print floatText) configShape := by
    apply objects_code
    intro key
    split_ifs
    · exact hstrings
    · exact hintegers
    · exact objects_code fun _ => hintegers
    · exact arrays_code hf hproxy
  apply objects_code
  intro key
  split_ifs
  · exact hconfig
  · exact objects_code fun _ => arrays_code hf hintegers

end Shape

theorem ofOption_mem {α : Type} (f : α → Json) (F : Set Json) (h : ∀ a, f a ∈ F) (o : Option α) :
    Json.ofOption f o ∈ nullable F := by
  cases o with
  | none => exact Set.mem_insert _ _
  | some a => exact Set.mem_insert_of_mem _ (h a)

theorem str_mem (s : String) : Json.str s ∈ strings := ⟨s, rfl⟩

theorem ofInt64_mem (n : Int64) : Json.ofInt64 n ∈ integers := ⟨n.toInt, rfl⟩

theorem ofUInt64_mem (n : UInt64) : Json.ofUInt64 n ∈ integers := ⟨n.toNat, rfl⟩

theorem Matcher.toJson_mem (m : Matcher) : m.toJson ∈ matcherShape := by
  refine ⟨_, rfl, ?_⟩
  have hheaders : Json.ofOption Json.ofHeaders m.headers ∈ nullable (objects fun _ => strings) := by
    apply ofOption_mem
    intro headers
    refine ⟨_, rfl, ?_⟩
    intro e he
    obtain ⟨e', -, rfl⟩ := List.mem_map.mp he
    exact str_mem _
  simp [str_mem, hheaders]

theorem Selector.toJson_mem (s : Selector) : s.toJson ∈ selectorShape := by
  refine ⟨_, rfl, ?_⟩
  have hfloat := ofOption_mem Json.float floats (fun x => ⟨x, rfl⟩)
  have hint := ofOption_mem Json.ofUInt64 integers ofUInt64_mem
  simp [hfloat, hint]

theorem Fault.toJson_mem (f : Fault) : f.toJson ∈ faultShape := by
  refine ⟨_, rfl, ?_⟩
  have hint := ofOption_mem Json.ofInt64 integers ofInt64_mem
  have hstr := ofOption_mem Json.str strings str_mem
  simp [hint, hstr, str_mem]

theorem Rule.toJson_mem (r : Rule) : r.toJson ∈ ruleShape := by
  refine ⟨_, rfl, ?_⟩
  have hbool : Json.bool r.enabled ∈ booleans := ⟨_, rfl⟩
  simp [str_mem, hbool, r.matcher.toJson_mem, r.select.toJson_mem, r.fault.toJson_mem]

theorem arr_map_mem {α : Type} (f : α → Json) (F : Set Json) (h : ∀ a, f a ∈ F) (l : List α) :
    Json.arr (l.map f) ∈ arrays F := by
  refine ⟨_, rfl, ?_⟩
  intro j hj
  obtain ⟨a, -, rfl⟩ := List.mem_map.mp hj
  exact h a

theorem Proxy.toJson_mem (p : Proxy) : p.toJson ∈ proxyShape := by
  refine ⟨_, rfl, ?_⟩
  have htls : Json.ofOption ListenerTLS.toJson p.tls ∈ nullable (objects fun _ => strings) := by
    apply ofOption_mem
    intro t
    exact ⟨_, rfl, by simp [str_mem]⟩
  have hup : Json.ofOption UpstreamTLS.toJson p.upstreamTLS ∈ nullable (objects fun _ => strings) := by
    apply ofOption_mem
    intro t
    exact ⟨_, rfl, by simp [str_mem]⟩
  have hrules := ofOption_mem (fun rules => Json.arr (rules.map Rule.toJson)) (arrays ruleShape)
    (arr_map_mem _ _ Rule.toJson_mem) p.rules
  simp [str_mem, htls, hup, hrules]

def documentJson (c : Config) (t : Digests) : Json :=
  .obj [("Config", c.toJson), ("TLS", .ofDigests t)]

theorem documentJson_mem (c : Config) (t : Digests) : documentJson c t ∈ documentShape := by
  have hruntime : Json.obj [("MaxInflightRequests", .ofInt64 c.runtime.maxInflightRequests),
      ("RequestTimeout", .ofInt64 c.runtime.requestTimeout)] ∈ objects (fun _ => integers) :=
    ⟨_, rfl, by simp [ofInt64_mem]⟩
  have hproxies := arr_map_mem Proxy.toJson proxyShape Proxy.toJson_mem c.proxies
  have hconfig : c.toJson ∈ configShape := by
    refine ⟨_, rfl, ?_⟩
    simp [str_mem, ofUInt64_mem, hruntime, hproxies]
  have hdigests : Json.ofDigests t ∈ objects (fun _ => arrays integers) := by
    refine ⟨_, rfl, ?_⟩
    intro e he
    obtain ⟨e', -, rfl⟩ := List.mem_map.mp he
    exact arr_map_mem (fun b : UInt8 => Json.int b.toNat) integers (fun b => ⟨_, rfl⟩) _
  refine ⟨_, rfl, ?_⟩
  simp [hconfig, hdigests]

/-! The serialized form determines the value. -/

theorem ofOption_injective {α : Type} (f : α → Json) (hf : Function.Injective f)
    (hnull : ∀ a, f a ≠ .null) : Function.Injective (Json.ofOption f) := by
  intro a b h
  cases a with
  | none =>
    cases b with
    | none => rfl
    | some b => exact absurd h.symm (hnull b)
  | some a =>
    cases b with
    | none => exact absurd h (hnull a)
    | some b => rw [hf h]

theorem ofInt64_injective : Function.Injective Json.ofInt64 := by
  intro a b h
  exact Int64.toInt_inj.mp (Json.int.inj h)

theorem ofUInt64_injective : Function.Injective Json.ofUInt64 := by
  intro a b h
  have hnat : a.toNat = b.toNat := by exact_mod_cast Json.int.inj h
  exact UInt64.toNat_inj.mp hnat

theorem str_injective : Function.Injective Json.str := fun _ _ h => Json.str.inj h

theorem optionalString_injective : Function.Injective (Json.ofOption Json.str) :=
  ofOption_injective _ str_injective (fun _ h => by cases h)

theorem optionalInt_injective : Function.Injective (Json.ofOption Json.ofInt64) :=
  ofOption_injective _ ofInt64_injective (fun _ h => by cases h)

theorem ofHeaders_injective : Function.Injective Json.ofHeaders := by
  intro a b h
  have hentries : a.entries = b.entries := by
    apply List.map_injective_iff.mpr _ (Json.obj.inj h)
    intro e e' he
    obtain ⟨hkey, hvalue⟩ := Prod.mk.inj he
    exact Prod.ext hkey (Json.str.inj hvalue)
  cases a
  cases b
  cases hentries
  rfl

theorem Matcher.toJson_injective : Function.Injective Matcher.toJson := by
  intro a b h
  simp only [Matcher.toJson, Json.obj.injEq, List.cons.injEq, Prod.mk.injEq, Json.str.injEq, true_and,
    and_true] at h
  obtain ⟨h1, h2, h3, h4, h5⟩ := h
  have hheaders := ofOption_injective _ ofHeaders_injective (fun _ h => by cases h) h5
  cases a
  cases b
  simp_all

theorem Selector.toJson_injective : Function.Injective Selector.toJson := by
  intro a b h
  simp only [Selector.toJson, Json.obj.injEq, List.cons.injEq, Prod.mk.injEq, true_and, and_true] at h
  obtain ⟨h1, h2, h3⟩ := h
  have hp := ofOption_injective _ (fun _ _ h => Json.float.inj h) (fun _ h => by cases h) h1
  have hint := ofOption_injective _ ofUInt64_injective (fun _ h => by cases h)
  have hn := hint h2
  have he := hint h3
  cases a
  cases b
  simp_all

theorem Fault.toJson_injective : Function.Injective Fault.toJson := by
  intro a b h
  simp only [Fault.toJson, Json.obj.injEq, List.cons.injEq, Prod.mk.injEq, Json.str.injEq, true_and,
    and_true, optionalInt_injective.eq_iff, optionalString_injective.eq_iff] at h
  obtain ⟨h1, h2, h3, h4, h5, h6, h7, h8, h9, h10, h11, h12⟩ := h
  cases a
  cases b
  simp_all

theorem Rule.toJson_injective : Function.Injective Rule.toJson := by
  intro a b h
  simp only [Rule.toJson, Json.obj.injEq, List.cons.injEq, Prod.mk.injEq, Json.str.injEq, Json.bool.injEq,
    true_and, and_true, Matcher.toJson_injective.eq_iff, Selector.toJson_injective.eq_iff,
    Fault.toJson_injective.eq_iff] at h
  obtain ⟨h1, h2, h3, h4, h5⟩ := h
  cases a
  cases b
  simp_all

theorem ListenerTLS.toJson_injective : Function.Injective ListenerTLS.toJson := by
  intro a b h
  simp only [ListenerTLS.toJson, Json.obj.injEq, List.cons.injEq, Prod.mk.injEq, Json.str.injEq, true_and,
    and_true] at h
  cases a
  cases b
  simp_all

theorem UpstreamTLS.toJson_injective : Function.Injective UpstreamTLS.toJson := by
  intro a b h
  simp only [UpstreamTLS.toJson, Json.obj.injEq, List.cons.injEq, Prod.mk.injEq, Json.str.injEq, true_and,
    and_true] at h
  cases a
  cases b
  simp_all

theorem Proxy.toJson_injective : Function.Injective Proxy.toJson := by
  intro a b h
  have hrules : Function.Injective (fun rules : List Rule => Json.arr (rules.map Rule.toJson)) :=
    fun _ _ h => List.map_injective_iff.mpr Rule.toJson_injective (Json.arr.inj h)
  simp only [Proxy.toJson, Json.obj.injEq, List.cons.injEq, Prod.mk.injEq, Json.str.injEq, true_and,
    and_true, (ofOption_injective _ ListenerTLS.toJson_injective (fun _ h => by cases h)).eq_iff,
    (ofOption_injective _ UpstreamTLS.toJson_injective (fun _ h => by cases h)).eq_iff,
    (ofOption_injective _ hrules (fun _ h => by cases h)).eq_iff] at h
  obtain ⟨h1, h2, h3, h4, h5, h6, h7, h8⟩ := h
  cases a
  cases b
  simp_all

theorem Config.toJson_injective : Function.Injective Config.toJson := by
  intro a b h
  simp only [Config.toJson, Json.obj.injEq, List.cons.injEq, Prod.mk.injEq, Json.str.injEq, Json.arr.injEq,
    true_and, and_true, ofUInt64_injective.eq_iff, ofInt64_injective.eq_iff,
    (List.map_injective_iff.mpr Proxy.toJson_injective).eq_iff] at h
  obtain ⟨h1, h2, ⟨h3, h4⟩, h5⟩ := h
  obtain ⟨_, _, ⟨_, _⟩, _⟩ := a
  obtain ⟨_, _, ⟨_, _⟩, _⟩ := b
  simp_all

theorem ofDigests_injective : Function.Injective Json.ofDigests := by
  intro a b h
  have hentries : a.entries = b.entries := by
    apply List.map_injective_iff.mpr _ (Json.obj.inj h)
    intro e e' he
    obtain ⟨hkey, hvalue⟩ := Prod.mk.inj he
    refine Prod.ext hkey (Vector.toList_inj.mp ?_)
    apply List.map_injective_iff.mpr _ (Json.arr.inj hvalue)
    intro x x' hx
    have hnat : x.toNat = x'.toNat := by exact_mod_cast Json.int.inj hx
    exact UInt8.toNat_inj.mp hnat
  cases a
  cases b
  cases hentries
  rfl

theorem documentJson_inj {c c' : Config} {t t' : Digests} (h : documentJson c t = documentJson c' t') :
    c = c' ∧ t = t' := by
  simp only [documentJson, Json.obj.injEq, List.cons.injEq, Prod.mk.injEq, true_and, and_true] at h
  exact ⟨Config.toJson_injective h.1, ofDigests_injective h.2⟩

theorem marshal_inj {lib : Library} (hjson : lib.PrintsJSON) {c c' : Config} {t t' : Digests} {x : Bytes}
    (h : lib.marshalJSON (documentJson c t) = some x) (h' : lib.marshalJSON (documentJson c' t') = some x) :
    c = c' ∧ t = t' := by
  obtain ⟨floatText, hf, hprint⟩ := hjson
  rw [hprint] at h h'
  obtain ⟨text, htext, hx⟩ := Option.map_eq_some_iff.mp h
  obtain ⟨text', htext', hx'⟩ := Option.map_eq_some_iff.mp h'
  have hsame : text = text' := String.ofList_injective (bytesOf_injective (hx.trans hx'.symm))
  subst hsame
  apply documentJson_inj
  exact (documentShape_code hf).injective (fun c hc => by cases hc) _ _ (documentJson_mem c t)
    (documentJson_mem c' t') text htext htext'

/-! The order of the proxies. -/

def Config.SameUpToOrder (c c' : Config) : Prop :=
  c.apiVersion = c'.apiVersion ∧ c.seed = c'.seed ∧ c.runtime = c'.runtime ∧ c.proxies.Perm c'.proxies

theorem Config.SameUpToOrder.symm {c c' : Config} (h : c.SameUpToOrder c') : c'.SameUpToOrder c :=
  ⟨h.1.symm, h.2.1.symm, h.2.2.1.symm, h.2.2.2.symm⟩

theorem perm_sort (ps qs : List Proxy) (h : (ps.map Proxy.id).Nodup) :
    ps.insertionSort (fun a b => a.id ≤ b.id) = qs.insertionSort (fun a b => a.id ≤ b.id) ↔ ps.Perm qs := by
  have hps := List.perm_insertionSort (fun a b : Proxy => a.id ≤ b.id) ps
  have hqs := List.perm_insertionSort (fun a b : Proxy => a.id ≤ b.id) qs
  have htotal : Std.Total (fun a b : Proxy => a.id ≤ b.id) := ⟨fun a b => le_total a.id b.id⟩
  have htrans : IsTrans Proxy (fun a b => a.id ≤ b.id) := ⟨fun _ _ _ => le_trans⟩
  constructor
  · intro heq
    exact hps.symm.trans (heq ▸ hqs)
  · intro hperm
    have hboth := hps.trans (hperm.trans hqs.symm)
    apply List.Perm.eq_of_pairwise _ (List.pairwise_insertionSort _ ps) (List.pairwise_insertionSort _ qs) hboth
    -- two proxies with one ID are one proxy
    intro a b ha hb hab hba
    have hid : a.id = b.id := le_antisymm hab hba
    exact List.inj_on_of_nodup_map h (hps.mem_iff.mp ha) (hperm.mem_iff.mpr (hqs.mem_iff.mp hb)) hid

theorem canonical_eq_iff (c c' : Config) (h : (c.proxies.map Proxy.id).Nodup) :
    canonical c = canonical c' ↔ c.SameUpToOrder c' := by
  obtain ⟨version, seed, runtime, proxies⟩ := c
  obtain ⟨version', seed', runtime', proxies'⟩ := c'
  simp only [canonical, Config.SameUpToOrder, Config.mk.injEq, perm_sort proxies proxies' h]

theorem restartPart_ids (c : Config) : (restartPart c).proxies.map Proxy.id = c.proxies.map Proxy.id := by
  simp [restartPart, Function.comp_def]

theorem restartPart_canonical (c : Config) : restartPart (canonical c) = canonical (restartPart c) := by
  have hsort := List.map_insertionSort (fun a b : Proxy => a.id ≤ b.id) (fun a b : Proxy => a.id ≤ b.id)
    (fun p : Proxy => { p with rules := none }) c.proxies (fun _ _ _ _ => Iff.rfl)
  simp only [restartPart, canonical, hsort]

/-! Documents with the files they were read from. -/

/-- A document that `Parse` or `Load` has returned. -/
structure Loaded (lib : Library) where
  yaml : Yaml
  host : Host
  document : Document
  accepted : Accepted lib yaml host document

variable {lib : Library}

def Loaded.config (a : Loaded lib) : Config := a.document.config

def Loaded.digests (a : Loaded lib) : Digests := a.config.digests lib a.host

def Loaded.fullText (a : Loaded lib) : Option Bytes :=
  lib.marshalJSON (documentJson (canonical a.config) a.digests)

def Loaded.restartText (a : Loaded lib) : Option Bytes :=
  lib.marshalJSON (documentJson (restartPart (canonical a.config)) a.digests)

/-- The TLS files that the first document names have the same digests for the second. -/
def SameTLS (a b : Loaded lib) : Prop :=
  ∀ name ∈ a.config.tlsFiles,
    (a.host.readFile name).map lib.sha256 = (b.host.readFile name).map lib.sha256

theorem Loaded.finished (a : Loaded lib) :
    ∃ c sources root, Finished lib a.host c sources root a.document := by
  obtain ⟨c, sources, root, h⟩ := a.accepted.finished
  exact ⟨c, sources, root, (finish_iff lib a.host c sources root a.document).mp h⟩

theorem Loaded.valid (a : Loaded lib) : a.document.valid = true ∧ ConfigValid a.config := by
  obtain ⟨c, sources, root, h⟩ := a.accepted.finished
  exact finish_valid lib a.host c sources root a.document h

theorem Loaded.readable (a : Loaded lib) : ∀ name ∈ a.config.tlsFiles, (a.host.readFile name).isSome := by
  obtain ⟨c, sources, root, h⟩ := a.finished
  exact h.readable

theorem Loaded.fingerprints (a : Loaded lib) : ∃ x y,
    a.fullText = some x ∧ a.restartText = some y ∧
    a.document.fingerprint = lib.sha256 x ∧ a.document.restartFingerprint = lib.sha256 y := by
  obtain ⟨c, sources, root, h⟩ := a.finished
  have hdoc := h.document
  unfold newDocument at hdoc
  cases hfull : configHash lib (canonical a.document.config) (a.document.config.digests lib a.host) with
  | none => simp [hfull] at hdoc
  | some full =>
    cases hrestart : configHash lib (restartPart (canonical a.document.config))
        (a.document.config.digests lib a.host) with
    | none => simp [hfull, hrestart] at hdoc
    | some restart =>
      simp only [hfull, hrestart, Option.some.injEq] at hdoc
      obtain ⟨x, hx, rfl⟩ := Option.map_eq_some_iff.mp hfull
      obtain ⟨y, hy, rfl⟩ := Option.map_eq_some_iff.mp hrestart
      exact ⟨x, y, hx, hy, by rw [← hdoc], by rw [← hdoc]⟩

theorem documentEqual_iff (a b : Loaded lib) : documentEqual (some a.document) (some b.document) = true ↔
    a.document.fingerprint = b.document.fingerprint := by
  simp [documentEqual, documentValid, a.valid.1, b.valid.1]

theorem restartCompatible_iff (a b : Loaded lib) :
    restartCompatible (some a.document) (some b.document) = true ↔
      a.document.restartFingerprint = b.document.restartFingerprint := by
  simp [restartCompatible, documentValid, a.valid.1, b.valid.1]

theorem digests_eq_iff (a b : Loaded lib) (hfiles : ∀ name, name ∈ a.config.tlsFiles ↔ name ∈ b.config.tlsFiles) :
    a.digests = b.digests ↔ SameTLS a b := by
  have hget (c : Loaded lib) (name : String) : c.digests.get? name =
      if name ∈ c.config.tlsFiles then (c.host.readFile name).map lib.sha256 else none :=
    addFiles_get? lib c.host ∅ c.config.tlsFiles c.readable name
  constructor
  · intro h name hname
    have hsame := congrArg (fun t => OrdMap.get? t name) h
    simp only [hget, if_pos hname, if_pos ((hfiles name).mp hname)] at hsame
    exact hsame
  · intro h
    apply OrdMap.ext_get?
    intro name
    rw [hget, hget]
    by_cases hname : name ∈ a.config.tlsFiles
    · rw [if_pos hname, if_pos ((hfiles name).mp hname)]
      exact h name hname
    · rw [if_neg hname, if_neg (fun hb => hname ((hfiles name).mpr hb))]

theorem restartPart_files (c : Config) : (restartPart c).tlsFiles = c.tlsFiles := by
  simp [Config.tlsFiles, restartPart, List.flatMap_map]
  rfl

theorem files_perm {c c' : Config} (h : c.proxies.Perm c'.proxies) (name : String) :
    name ∈ c.tlsFiles ↔ name ∈ c'.tlsFiles := by
  simp only [Config.tlsFiles, List.mem_flatMap]
  constructor
  · rintro ⟨p, hp, hname⟩
    exact ⟨p, h.mem_iff.mp hp, hname⟩
  · rintro ⟨p, hp, hname⟩
    exact ⟨p, h.mem_iff.mpr hp, hname⟩

def Proxy.SameInfra (p q : Proxy) : Prop :=
  p.protocol = q.protocol ∧ p.upstreamProtocol = q.upstreamProtocol ∧ p.listen = q.listen ∧
    p.upstream = q.upstream ∧ p.tls = q.tls ∧ p.upstreamTLS = q.upstreamTLS

def Changed (a b : Loaded lib) : Prop :=
  a.config.runtime ≠ b.config.runtime ∨
    (∃ id, ¬ (id ∈ a.config.proxies.map Proxy.id ↔ id ∈ b.config.proxies.map Proxy.id)) ∨
    (∃ p ∈ a.config.proxies, ∃ q ∈ b.config.proxies, p.id = q.id ∧ ¬ p.SameInfra q) ∨
    ∃ name ∈ a.config.tlsFiles, a.host.readFile name ≠ b.host.readFile name

/-- What `Equal` and `RestartCompatible` mean on a set of documents. -/
structure ComparisonLaw (S : Set (Loaded lib)) : Prop where
  equal : ∀ a ∈ S, ∀ b ∈ S, documentEqual (some a.document) (some b.document) = true ↔
    a.config.SameUpToOrder b.config ∧ SameTLS a b
  compatible : ∀ a ∈ S, ∀ b ∈ S, restartCompatible (some a.document) (some b.document) = true ↔
    (restartPart a.config).SameUpToOrder (restartPart b.config) ∧ SameTLS a b
  equalEquivalence : Equivalence (fun a b : S =>
    documentEqual (some a.1.document) (some b.1.document) = true)
  compatibleEquivalence : Equivalence (fun a b : S =>
    restartCompatible (some a.1.document) (some b.1.document) = true)
  /-- The order of the proxies does not matter. -/
  reordered : ∀ a ∈ S, ∀ a' ∈ S, a.config.SameUpToOrder a'.config → SameTLS a a' → ∀ b ∈ S,
    documentEqual (some a.document) (some b.document) = documentEqual (some a'.document) (some b.document) ∧
    restartCompatible (some a.document) (some b.document) =
      restartCompatible (some a'.document) (some b.document)
  weaker : ∀ a ∈ S, ∀ b ∈ S, documentEqual (some a.document) (some b.document) = true →
    restartCompatible (some a.document) (some b.document) = true
  changed : ∀ a ∈ S, ∀ b ∈ S, Changed a b →
    restartCompatible (some a.document) (some b.document) = false

section Law
variable {S : Set (Loaded lib)}

/-- SHA-256 is injective on what is hashed for the documents. -/
structure HashesApart (S : Set (Loaded lib)) : Prop where
  full : ∀ a ∈ S, ∀ b ∈ S, ∀ x y, a.fullText = some x → b.fullText = some y →
    lib.sha256 x = lib.sha256 y → x = y
  restart : ∀ a ∈ S, ∀ b ∈ S, ∀ x y, a.restartText = some x → b.restartText = some y →
    lib.sha256 x = lib.sha256 y → x = y
  files : ∀ a ∈ S, ∀ b ∈ S, ∀ name ∈ a.config.tlsFiles, ∀ x y, a.host.readFile name = some x →
    b.host.readFile name = some y → lib.sha256 x = lib.sha256 y → x = y

theorem equal_of_same (a b : Loaded lib) (hsame : a.config.SameUpToOrder b.config) (htls : SameTLS a b) :
    documentEqual (some a.document) (some b.document) = true := by
  obtain ⟨x, _, hx, -, hfa, -⟩ := a.fingerprints
  obtain ⟨y, _, hy, -, hfb, -⟩ := b.fingerprints
  have hcanonical := (canonical_eq_iff _ _ a.valid.2.proxyIDs).mpr hsame
  have hdigests := (digests_eq_iff a b (files_perm hsame.2.2.2)).mpr htls
  rw [documentEqual_iff, hfa, hfb]
  rw [Loaded.fullText, hcanonical, hdigests] at hx
  rw [Loaded.fullText, hx] at hy
  rw [Option.some.inj hy]

theorem equal_law (hjson : lib.PrintsJSON) (hsha : HashesApart S) (a b : Loaded lib) (ha : a ∈ S) (hb : b ∈ S) :
    documentEqual (some a.document) (some b.document) = true ↔
      a.config.SameUpToOrder b.config ∧ SameTLS a b := by
  constructor
  · intro h
    obtain ⟨x, _, hx, -, hfa, -⟩ := a.fingerprints
    obtain ⟨y, _, hy, -, hfb, -⟩ := b.fingerprints
    rw [documentEqual_iff, hfa, hfb] at h
    have hxy := hsha.full a ha b hb x y hx hy h
    subst hxy
    obtain ⟨hcanonical, hdigests⟩ := marshal_inj hjson hx hy
    have hsame := (canonical_eq_iff _ _ a.valid.2.proxyIDs).mp hcanonical
    exact ⟨hsame, (digests_eq_iff a b (files_perm hsame.2.2.2)).mp hdigests⟩
  · rintro ⟨hsame, htls⟩
    exact equal_of_same a b hsame htls

theorem compatible_law (hjson : lib.PrintsJSON) (hsha : HashesApart S) (a b : Loaded lib) (ha : a ∈ S)
    (hb : b ∈ S) : restartCompatible (some a.document) (some b.document) = true ↔
      (restartPart a.config).SameUpToOrder (restartPart b.config) ∧ SameTLS a b := by
  obtain ⟨_, x, -, hx, -, hfa⟩ := a.fingerprints
  obtain ⟨_, y, -, hy, -, hfb⟩ := b.fingerprints
  have hids : ((restartPart a.config).proxies.map Proxy.id).Nodup := by
    rw [restartPart_ids]
    exact a.valid.2.proxyIDs
  have hfiles (hsame : (restartPart a.config).SameUpToOrder (restartPart b.config)) (name : String) :
      name ∈ a.config.tlsFiles ↔ name ∈ b.config.tlsFiles := by
    rw [← restartPart_files a.config, ← restartPart_files b.config]
    exact files_perm hsame.2.2.2 name
  rw [restartCompatible_iff, hfa, hfb]
  constructor
  · intro h
    have hxy := hsha.restart a ha b hb x y hx hy h
    subst hxy
    obtain ⟨hcanonical, hdigests⟩ := marshal_inj hjson hx hy
    rw [restartPart_canonical, restartPart_canonical, canonical_eq_iff _ _ hids] at hcanonical
    exact ⟨hcanonical, (digests_eq_iff a b (hfiles hcanonical)).mp hdigests⟩
  · rintro ⟨hsame, htls⟩
    have hcanonical := (canonical_eq_iff _ _ hids).mpr hsame
    have hdigests := (digests_eq_iff a b (hfiles hsame)).mpr htls
    rw [Loaded.restartText, restartPart_canonical, hcanonical, ← restartPart_canonical, hdigests] at hx
    rw [Loaded.restartText, hx] at hy
    rw [Option.some.inj hy]

theorem erased_same {ps qs : List Proxy} (hids : (qs.map Proxy.id).Nodup)
    (hperm : (ps.map (fun p => { p with rules := none })).Perm (qs.map (fun p => { p with rules := none })))
    (p q : Proxy) (hp : p ∈ ps) (hq : q ∈ qs) (hid : p.id = q.id) : p.SameInfra q := by
  have hmem : ({ p with rules := none } : Proxy) ∈ qs.map (fun p => { p with rules := none }) :=
    hperm.mem_iff.mp (List.mem_map_of_mem hp)
  obtain ⟨q', hq', heq⟩ := List.mem_map.mp hmem
  have hid' : q'.id = q.id := (congrArg Proxy.id heq).trans hid
  have hqq := List.inj_on_of_nodup_map hids hq' hq hid'
  subst hqq
  simp only [Proxy.mk.injEq] at heq
  obtain ⟨-, h1, h2, h3, h4, h5, h6, -⟩ := heq
  exact ⟨h1.symm, h2.symm, h3.symm, h4.symm, h5.symm, h6.symm⟩

theorem changed_law (hjson : lib.PrintsJSON) (hsha : HashesApart S) (a b : Loaded lib) (ha : a ∈ S)
    (hb : b ∈ S) (h : Changed a b) : restartCompatible (some a.document) (some b.document) = false := by
  rw [← Bool.not_eq_true, compatible_law hjson hsha a b ha hb]
  rintro ⟨⟨-, -, hruntime, hperm⟩, htls⟩
  rcases h with hdiff | ⟨id, hdiff⟩ | ⟨p, hp, q, hq, hid, hdiff⟩ | ⟨name, hname, hdiff⟩
  · exact hdiff hruntime
  · apply hdiff
    have hids := (hperm.map Proxy.id).mem_iff (a := id)
    rwa [restartPart_ids, restartPart_ids] at hids
  · exact hdiff (erased_same b.valid.2.proxyIDs hperm p q hp hq hid)
  · apply hdiff
    have hdigest := htls name hname
    obtain ⟨x, hx⟩ := Option.isSome_iff_exists.mp (a.readable name hname)
    have hfiles : name ∈ b.config.tlsFiles := by
      rw [← restartPart_files] at hname ⊢
      exact (files_perm hperm name).mp hname
    obtain ⟨y, hy⟩ := Option.isSome_iff_exists.mp (b.readable name hfiles)
    rw [hx, hy, Option.map_some, Option.map_some, Option.some.injEq] at hdigest
    rw [hx, hy, hsha.files a ha b hb name hname x y hx hy hdigest]

end Law

/-! The standard printer, and two documents that differ in the order of their proxies. -/

def standardFloat (x : Float64) : Option (List Char) :=
  if x = Float64.zero then some ['0'] else if x = Float64.one then some ['1']
  else if x = ⟨0x3FE0000000000000⟩ then some "0.5".toList else none

theorem standardFloat_text : FloatText standardFloat := by
  constructor
  · intro x t h
    unfold standardFloat at h
    split_ifs at h <;> cases h <;> simp [numberChar, Char.isDigit]
  · intro x y t hx hy
    unfold standardFloat at hx hy
    split_ifs at hx hy
    all_goals first
      | exact ‹x = _›.trans ‹y = _›.symm
      | exact absurd (hx.trans hy.symm) (by decide)

mutual

theorem text_eq_print (j : Json) : j.text = j.print standardFloat := by
  cases j with
  | arr items => simp only [Json.text, Json.print, items_eq_print items]
  | obj fields => simp only [Json.text, Json.print, fields_eq_print fields]
  | _ => rfl

theorem items_eq_print (items : List Json) :
    Json.items items = Json.printItems standardFloat items := by
  cases items with
  | nil => rfl
  | cons j items =>
    exact congrArg₂ (fun t ts => match t, ts with
      | some t, some ts => some (t :: ts)
      | _, _ => none) (text_eq_print j) (items_eq_print items)

theorem fields_eq_print (fields : List (String × Json)) :
    Json.fields fields = Json.printFields standardFloat fields := by
  cases fields with
  | nil => rfl
  | cons e fields =>
    obtain ⟨key, j⟩ := e
    exact congrArg₂ (fun t ts => match t, ts with
      | some t, some ts => some ((jsonString key ++ ':' :: t) :: ts)
      | _, _ => none) (text_eq_print j) (fields_eq_print fields)

end

theorem standardLibrary_prints : standardLibrary.PrintsJSON :=
  ⟨standardFloat, standardFloat_text, fun j => by rw [← text_eq_print]; rfl⟩

def secondProxy : Proxy := { sampleProxy [] with id := "web", listen := "127.0.0.1:8081" }

def pairConfig (proxies : List Proxy) : Config := { sampleConfig [] with proxies := proxies }

def pairHeader : String :=
  "api_version: faultline/v1alpha1\nseed: 42\nruntime:\n    max_inflight_requests: 1000\n" ++
    "    request_timeout: 30s\nproxies:\n"

def firstText : String :=
  "    - id: api\n      protocol: http1\n      upstream_protocol: http1\n" ++
    "      listen: 127.0.0.1:8080\n      upstream: http://127.0.0.1:9000\n      rules: []\n"

def secondText : String :=
  "    - id: web\n      protocol: http1\n      upstream_protocol: http1\n" ++
    "      listen: 127.0.0.1:8081\n      upstream: http://127.0.0.1:9000\n      rules: []\n"

def pairYaml (text : Bytes) (proxies : List Proxy) : Yaml :=
  standardYaml text (prune (encodeConfig (standardYaml [] .alias) (pairConfig proxies)))

theorem pair_accepted (text : Bytes) (proxies : List Proxy)
    (h : (parse standardLibrary (pairYaml text proxies) sampleHost text
      "/etc/faultline.yaml").toOption.map (·.config) = some (pairConfig proxies)) :
    ∃ a : Loaded standardLibrary, a.host = sampleHost ∧ a.config = pairConfig proxies := by
  cases hp : parse standardLibrary (pairYaml text proxies) sampleHost text "/etc/faultline.yaml" with
  | error e =>
    rw [hp] at h
    cases h
  | ok d =>
    rw [hp] at h
    exact ⟨⟨_, _, d, Or.inl ⟨_, _, hp⟩⟩, rfl, Option.some.inj h⟩

theorem first_accepted : ∃ a : Loaded standardLibrary, a.host = sampleHost ∧
    a.config = pairConfig [sampleProxy [], secondProxy] := by
  apply pair_accepted (bytesOf (pairHeader ++ firstText ++ secondText))
  decide +kernel

theorem second_accepted : ∃ b : Loaded standardLibrary, b.host = sampleHost ∧
    b.config = pairConfig [secondProxy, sampleProxy []] := by
  apply pair_accepted (bytesOf (pairHeader ++ secondText ++ firstText))
  decide +kernel

theorem pair_apart (a b : Loaded standardLibrary) (ha : a.host = sampleHost)
    (hb : b.host = sampleHost) (hsame : a.config.SameUpToOrder b.config) :
    SameTLS a b ∧ HashesApart {a, b} := by
  have htls : SameTLS a b := fun name _ => by rw [ha, hb]
  have hconfig := (canonical_eq_iff _ _ a.valid.2.proxyIDs).mpr hsame
  have hdigests := (digests_eq_iff a b (files_perm hsame.2.2.2)).mpr htls
  have hfull : a.fullText = b.fullText := by
    rw [Loaded.fullText, hconfig, hdigests, Loaded.fullText]
  have hrestart : a.restartText = b.restartText := by
    rw [Loaded.restartText, hconfig, hdigests, Loaded.restartText]
  refine ⟨htls, ?_, ?_, ?_⟩
  · rintro c (rfl | rfl) d (rfl | rfl) x y hx hy -
    all_goals exact Option.some.inj (by simp only [← hx, ← hy, hfull])
  · rintro c (rfl | rfl) d (rfl | rfl) x y hx hy -
    all_goals exact Option.some.inj (by simp only [← hx, ← hy, hrestart])
  · rintro c (rfl | rfl) d - name - x y hx
    · rw [ha] at hx
      cases hx
    · rw [hb] at hx
      cases hx

/-- `Equal` and `RestartCompatible` compare the normalized configurations and the TLS files. -/
theorem document_comparison (lib : Library) (hjson : lib.PrintsJSON) (S : Set (Loaded lib))
    (hsha : HashesApart S) : ComparisonLaw S := by
  have hequal := equal_law hjson hsha
  have hcompatible := compatible_law hjson hsha
  have hweaker (a b : Loaded lib) (ha : a ∈ S) (hb : b ∈ S)
      (h : documentEqual (some a.document) (some b.document) = true) :
      restartCompatible (some a.document) (some b.document) = true := by
    obtain ⟨⟨hversion, -, hruntime, hperm⟩, htls⟩ := (hequal a b ha hb).mp h
    exact (hcompatible a b ha hb).mpr ⟨⟨hversion, rfl, hruntime, hperm.map _⟩, htls⟩
  refine ⟨fun a ha b hb => hequal a b ha hb, fun a ha b hb => hcompatible a b ha hb, ?_, ?_, ?_,
    fun a ha b hb => hweaker a b ha hb, fun a ha b hb => changed_law hjson hsha a b ha hb⟩
  · simp only [documentEqual_iff]
    exact ⟨fun _ => rfl, fun h => h.symm, fun h h' => h.trans h'⟩
  · simp only [restartCompatible_iff]
    exact ⟨fun _ => rfl, fun h => h.symm, fun h h' => h.trans h'⟩
  · intro a ha a' ha' hsame htls b hb
    have heq := (hequal a a' ha ha').mpr ⟨hsame, htls⟩
    have hcompat := hweaker a a' ha ha' heq
    rw [documentEqual_iff] at heq
    rw [restartCompatible_iff] at hcompat
    constructor
    · rw [Bool.eq_iff_iff, documentEqual_iff, documentEqual_iff, heq]
    · rw [Bool.eq_iff_iff, restartCompatible_iff, restartCompatible_iff, hcompat]

theorem document_comparison_reordered : ∃ a b : Loaded standardLibrary,
    a.config = pairConfig [sampleProxy [], secondProxy] ∧
    b.config = pairConfig [secondProxy, sampleProxy []] ∧ ComparisonLaw {a, b} ∧
    documentEqual (some a.document) (some b.document) = true := by
  obtain ⟨a, hahost, ha⟩ := first_accepted
  obtain ⟨b, hbhost, hb⟩ := second_accepted
  have hsame : a.config.SameUpToOrder b.config := by
    rw [ha, hb]
    exact ⟨rfl, rfl, rfl, List.Perm.swap _ _ _⟩
  obtain ⟨htls, hapart⟩ := pair_apart a b hahost hbhost hsame
  have hlaw := document_comparison standardLibrary standardLibrary_prints {a, b} hapart
  exact ⟨a, b, ha, hb, hlaw, (hlaw.equal a (Or.inl rfl) b (Or.inr rfl)).mpr ⟨hsame, htls⟩⟩

end Faultline
