import Faultline.ConfigNormal
import Faultline.JsonText

/-! Where an error is: every error of `validate` names a field of the header or a field below one
proxy, and `finish` finds the file that declares this proxy by the text of the path. -/
namespace Faultline

/-! Errors below a path. -/

def ErrorsIn (start : List Char) {α : Type} (x : Except FieldError α) : Prop :=
  ∀ e, x = .error e → start <+: e.path.toList

section Combinators
variable {start : List Char} {α β : Type}

theorem errorsIn_ok (a : α) : ErrorsIn start (.ok a) := by
  intro e h
  cases h

theorem errorsIn_pure (a : α) : ErrorsIn start (pure a) := errorsIn_ok a

theorem errorsIn_invalid (path message : String) :
    ErrorsIn start (invalid path message : Except FieldError α) ↔ start <+: path.toList := by
  constructor
  · intro h
    exact h ⟨"", path, message⟩ rfl
  · intro h e he
    cases he
    exact h

theorem errorsIn_reject (cond : Prop) [Decidable cond] (path message : String) :
    ErrorsIn start (reject cond path message) ↔ (cond → start <+: path.toList) := by
  unfold reject
  split_ifs with hcond
  · simp only [errorsIn_invalid, hcond, true_imp_iff]
  · simp only [errorsIn_ok, hcond, false_imp_iff]

theorem errorsIn_bind (x : Except FieldError α) (f : α → Except FieldError β) :
    ErrorsIn start (x >>= f) ↔ ErrorsIn start x ∧ ∀ a, x = .ok a → ErrorsIn start (f a) := by
  cases x with
  | error e =>
    refine ⟨fun h => ⟨fun e' he' => ?_, fun a ha => by cases ha⟩, fun h e' he' => ?_⟩
    · cases he'
      exact h e rfl
    · cases he'
      exact h.1 e rfl
  | ok a =>
    refine ⟨fun h => ⟨errorsIn_ok a, fun b hb => ?_⟩, fun h => h.2 a rfl⟩
    cases hb
    exact h

theorem errorsIn_ite (cond : Prop) [Decidable cond] (x y : Except FieldError α) :
    ErrorsIn start (if cond then x else y) ↔ (cond → ErrorsIn start x) ∧ (¬ cond → ErrorsIn start y) := by
  split_ifs with hcond <;> simp [hcond]

end Combinators

theorem prefix_field {start : List Char} {path : String} (h : start <+: path.toList) (field : String) :
    start <+: (path ++ field).toList := by
  rw [String.toList_append]
  exact h.trans (List.prefix_append _ _)

theorem below_field (path field : String) (h : field.toList.head? = some '.') :
    (path ++ ".").toList <+: (path ++ field).toList := by
  rw [String.toList_append, String.toList_append, List.prefix_append_right_inj]
  cases hfield : field.toList with
  | nil =>
    rw [hfield] at h
    cases h
  | cons c rest =>
    rw [hfield] at h
    cases h
    exact ⟨rest, rfl⟩

/-! The rules of a proxy. -/

section Rules
variable {start : List Char} {path : String} (h : start <+: path.toList)
include h

theorem validateSelector_errors (s : Selector) : ErrorsIn start (validateSelector s path) := by
  simp only [validateSelector, errorsIn_bind, errorsIn_reject, errorsIn_pure, prefix_field h, implies_true,
    and_true]

theorem validateAction_errors (f : Fault) : ErrorsIn start (validateAction f path) := by
  simp only [validateAction, errorsIn_ite, errorsIn_bind, errorsIn_reject, prefix_field h, implies_true,
    and_true]

theorem validateFault_errors (f : Fault) : ErrorsIn start (validateFault f path) := by
  simp only [validateFault, errorsIn_bind, errorsIn_reject, h, prefix_field h, validateAction_errors h,
    implies_true, and_true]

theorem validateHeaders_errors (es : List (String × String)) (headers : OrdMap String String) :
    ErrorsIn start (validateHeaders path es headers) := by
  induction es generalizing headers with
  | nil => exact errorsIn_ok headers
  | cons e es ih =>
    simp only [validateHeaders, errorsIn_bind, errorsIn_reject, prefix_field h, ih, implies_true, and_true]

theorem validateRule_errors (r : Rule) : ErrorsIn start (validateRule r path) := by
  simp only [validateRule, errorsIn_bind, errorsIn_reject, errorsIn_pure, prefix_field h,
    validateHeaders_errors h, validateSelector_errors h, validateFault_errors (prefix_field h ".fault"),
    implies_true, and_true]

theorem validateTCPAction_errors (f : Fault) : ErrorsIn start (validateTCPAction f path) := by
  simp only [validateTCPAction, errorsIn_ite, errorsIn_reject, errorsIn_invalid, prefix_field h, implies_true,
    and_true]

theorem validateTCPRule_errors (r : Rule) : ErrorsIn start (validateTCPRule r path) := by
  simp only [validateTCPRule, errorsIn_bind, errorsIn_reject, errorsIn_pure, prefix_field h,
    validateSelector_errors h, validateTCPAction_errors h, implies_true, and_true]

theorem validateCommitRule_errors (r : Rule) : ErrorsIn start (validateCommitRule r path) := by
  simp only [validateCommitRule, errorsIn_bind, errorsIn_reject, errorsIn_pure, prefix_field h,
    validateRule_errors h, implies_true, and_true]

theorem validateProxyRule_errors (protocol : String) (r : Rule) :
    ErrorsIn start (validateProxyRule protocol r path) := by
  simp only [validateProxyRule, errorsIn_bind, errorsIn_reject, errorsIn_ite, prefix_field h,
    validateCommitRule_errors h, validateTCPRule_errors h, validateRule_errors h, implies_true, and_true]

end Rules

theorem validateRules_errors (protocol path : String) (j : ℕ) (rules : List Rule) :
    ErrorsIn (path ++ ".").toList (validateRules protocol path j rules) := by
  induction rules generalizing j with
  | nil => exact errorsIn_ok []
  | cons r rules ih =>
    have hrule : (path ++ ".").toList <+: (elementPath (path ++ ".rules") j).toList := by
      unfold elementPath
      exact prefix_field (prefix_field (prefix_field (below_field path ".rules" (by decide)) _) _) _
    simp only [validateRules, errorsIn_bind, errorsIn_pure, validateProxyRule_errors hrule, ih, implies_true,
      and_true]

/-! The files of a proxy. -/

section Files
variable {start : List Char} (lib : Library) (host : Host) (base : String) {path : String}
  (h : start <+: path.toList)
include h

theorem countCertificates_errors (count : ℕ) (data : Bytes) :
    ErrorsIn start (countCertificates lib path count data) := by
  induction hn : data.length using Nat.strong_induction_on generalizing data count with
  | _ n ih =>
    unfold countCertificates
    rw [errorsIn_ite]
    refine ⟨fun _ => errorsIn_ok count, fun _ => ?_⟩
    split
    · exact (errorsIn_invalid _ _).mpr h
    · next block hblock =>
      -- every certificate makes the rest of the file shorter
      have hshort := lib.pemDecode_rest data block hblock
      have htrim := length_trimSpace block.rest
      simp only [errorsIn_ite, errorsIn_invalid, h, implies_true, true_and]
      intro _ _
      exact ih _ (by omega) _ _ rfl

theorem readTLS_errors (name : String) (digests : Digests) :
    ErrorsIn start (readTLS lib host base name path digests) := by
  unfold readTLS
  cases host.readFile (tlsFileName base name) with
  | none => simp only [errorsIn_bind, errorsIn_reject, errorsIn_invalid, h, implies_true, and_true]
  | some data => simp only [errorsIn_bind, errorsIn_reject, errorsIn_pure, h, implies_true, and_true]

theorem readKeyPair_errors (cert key : String) (digests : Digests) :
    ErrorsIn start (readKeyPair lib host base cert key path digests) := by
  simp only [readKeyPair, errorsIn_bind, errorsIn_reject, errorsIn_pure, h,
    readTLS_errors lib host base (prefix_field h ".cert_file"),
    readTLS_errors lib host base (prefix_field h ".key_file"), implies_true, and_true]

theorem validateCA_errors (name : String) (digests : Digests) :
    ErrorsIn start (validateCA lib host base name path digests) := by
  simp only [validateCA, errorsIn_bind, errorsIn_reject, errorsIn_pure, h, readTLS_errors lib host base h,
    countCertificates_errors lib h, implies_true, and_true]

theorem validateOptionalCA_errors (name : String) (digests : Digests) :
    ErrorsIn start (validateOptionalCA lib host base name path digests) := by
  simp only [validateOptionalCA, errorsIn_ite, errorsIn_ok, validateCA_errors lib host base h, implies_true,
    and_true]

end Files

/-! The proxies. -/

section Proxies
variable (lib : Library) (host : Host) (base path : String)

theorem validateListenerTLS_errors (t : Option ListenerTLS) (digests : Digests) :
    ErrorsIn (path ++ ".").toList (validateListenerTLS lib host base path t digests) := by
  have htls := below_field path ".tls" (by decide)
  have hca := below_field path ".tls.client_ca_file" (by decide)
  cases t with
  | none => exact errorsIn_ok _
  | some t =>
    simp only [validateListenerTLS, errorsIn_bind, errorsIn_pure, readKeyPair_errors lib host base htls,
      validateOptionalCA_errors lib host base hca, implies_true, and_true]

theorem validateUpstreamTLS_errors (upstream : String) (t : Option UpstreamTLS) (digests : Digests) :
    ErrorsIn (path ++ ".").toList (validateUpstreamTLS lib host base path upstream t digests) := by
  have htls := below_field path ".upstream_tls" (by decide)
  have hca := below_field path ".upstream_tls.ca_file" (by decide)
  cases t with
  | none => exact errorsIn_ok _
  | some t =>
    simp only [validateUpstreamTLS, errorsIn_bind, errorsIn_reject, errorsIn_ite, errorsIn_pure, htls,
      readKeyPair_errors lib host base htls, validateOptionalCA_errors lib host base hca, implies_true,
      and_true]

theorem validateTLS_errors (p : Proxy) (digests : Digests) :
    ErrorsIn (path ++ ".").toList (validateTLS lib host base path p digests) := by
  have htls := below_field path ".tls" (by decide)
  simp only [validateTLS, errorsIn_bind, errorsIn_reject, errorsIn_pure, htls,
    validateListenerTLS_errors lib host base path, validateUpstreamTLS_errors lib host base path,
    implies_true, and_true]

theorem validateListen_errors (listen : String) :
    ErrorsIn (path ++ ".").toList (validateListen path listen) := by
  have hlisten := below_field path ".listen" (by decide)
  unfold validateListen
  split
  · exact (errorsIn_invalid _ _).mpr hlisten
  · split
    · exact (errorsIn_invalid _ _).mpr hlisten
    · simp only [errorsIn_bind, errorsIn_reject, errorsIn_pure, hlisten, implies_true, and_true]

theorem validateTCPUpstream_errors (upstream listen : String) :
    ErrorsIn (path ++ ".").toList (validateTCPUpstream path upstream listen) := by
  have hupstream := below_field path ".upstream" (by decide)
  unfold validateTCPUpstream
  split
  · exact (errorsIn_invalid _ _).mpr hupstream
  · simp only [errorsIn_bind, errorsIn_reject, hupstream, implies_true, true_and]
    intro _ _
    split
    · exact (errorsIn_invalid _ _).mpr hupstream
    · simp only [errorsIn_bind, errorsIn_reject, errorsIn_pure, hupstream, implies_true, and_true]

theorem originPort_errors (protocol : String) (u : URL) :
    ErrorsIn (path ++ ".").toList (originPort protocol u path) := by
  have hupstream := below_field path ".upstream" (by decide)
  unfold originPort
  simp only
  rw [errorsIn_ite]
  constructor
  · intro _
    split
    · exact (errorsIn_invalid _ _).mpr hupstream
    · simp only [errorsIn_bind, errorsIn_reject, errorsIn_ite, errorsIn_pure, hupstream, implies_true, and_true]
  · intro _
    simp only [errorsIn_bind, errorsIn_reject, errorsIn_pure, hupstream, implies_true, and_true]

theorem validateOrigin_errors (protocol upstream : String) :
    ErrorsIn (path ++ ".").toList (validateOrigin path protocol upstream) := by
  have hupstream := below_field path ".upstream" (by decide)
  unfold validateOrigin
  split
  · exact (errorsIn_invalid _ _).mpr hupstream
  · simp only [errorsIn_bind, errorsIn_reject, errorsIn_pure, hupstream, originPort_errors path, implies_true,
      and_true]

theorem validateProtocols_errors (id protocol upstreamProtocol : String) :
    ErrorsIn (path ++ ".").toList (validateProtocols path id protocol upstreamProtocol) := by
  have hid := below_field path ".id" (by decide)
  have hprotocol := below_field path ".protocol" (by decide)
  have hupstream := below_field path ".upstream_protocol" (by decide)
  simp only [validateProtocols, errorsIn_bind, errorsIn_reject, hid, hprotocol, hupstream, implies_true,
    and_true]

theorem validateUpstream_errors (p : Proxy) (digests : Digests) :
    ErrorsIn (path ++ ".").toList (validateUpstream lib host base path p digests) := by
  have htls := below_field path ".tls" (by decide)
  simp only [validateUpstream, errorsIn_ite, errorsIn_bind, errorsIn_reject, errorsIn_pure, htls,
    validateTCPUpstream_errors path, validateOrigin_errors path, validateTLS_errors lib host base path,
    implies_true, and_true]

theorem validateProxy_errors (listeners : List String) (digests : Digests) (p : Proxy) :
    ErrorsIn (path ++ ".").toList (validateProxy lib host base path listeners digests p) := by
  have hlisten := below_field path ".listen" (by decide)
  simp only [validateProxy, errorsIn_bind, errorsIn_reject, errorsIn_pure, hlisten,
    validateProtocols_errors path, validateListen_errors path, validateUpstream_errors lib host base path,
    validateRules_errors, implies_true, and_true]

end Proxies

theorem validateProxies_error (lib : Library) (host : Host) (base : String) (i : ℕ) (listeners : List String)
    (digests : Digests) (ps : List Proxy) (e : FieldError)
    (h : validateProxies lib host base i listeners digests ps = .error e) :
    ∃ k < ps.length, (elementPath "proxies" (i + k) ++ ".").toList <+: e.path.toList := by
  induction ps generalizing i listeners digests with
  | nil => cases h
  | cons p ps ih =>
    unfold validateProxies at h
    cases hproxy : validateProxy lib host base (elementPath "proxies" i) listeners digests p with
    | error e' =>
      rw [hproxy] at h
      cases h
      exact ⟨0, by simp, validateProxy_errors lib host base _ listeners digests p e hproxy⟩
    | ok checked =>
      obtain ⟨p', digests'⟩ := checked
      rw [hproxy] at h
      cases hrest : validateProxies lib host base (i + 1) (p'.listen :: listeners) digests' ps with
      | error e' =>
        have herror : e' = e := by
          simp only [bind, Except.bind, hrest] at h
          exact Except.error.inj h
        obtain ⟨k, hk, hbelow⟩ := ih (i + 1) _ _ (herror ▸ hrest)
        refine ⟨k + 1, by simpa using hk, ?_⟩
        rwa [show i + (k + 1) = i + 1 + k by omega]
      | ok rest =>
        simp only [bind, Except.bind, hrest] at h
        cases h

theorem bind_eq_error {α β : Type} (x : Except FieldError α) (f : α → Except FieldError β) (e : FieldError) :
    (x >>= f) = .error e ↔ x = .error e ∨ ∃ a, x = .ok a ∧ f a = .error e := by
  cases x with
  | error e' =>
    constructor
    · intro h
      cases h
      exact Or.inl rfl
    · rintro (h | ⟨a, ha, -⟩)
      · cases h
        rfl
      · cases ha
  | ok a =>
    constructor
    · intro h
      exact Or.inr ⟨a, rfl, h⟩
    · rintro (h | ⟨b, hb, h⟩)
      · cases h
      · cases hb
        exact h

theorem reject_eq_error (cond : Prop) [Decidable cond] (path message : String) (e : FieldError) :
    reject cond path message = .error e ↔ cond ∧ ⟨"", path, message⟩ = e := by
  unfold reject invalid
  split_ifs with hcond <;> simp [hcond]

/-- The fields that `validate` checks itself. -/
def headerFields : List String :=
  ["api_version", "runtime.max_inflight_requests", "runtime.request_timeout", "proxies"]

theorem validate_error (lib : Library) (host : Host) (c : Config) (base : String) (e : FieldError)
    (h : validate lib host c base = .error e) :
    (∃ i < c.proxies.length, (elementPath "proxies" i ++ ".").toList <+: e.path.toList) ∨
      e.path ∈ headerFields := by
  simp only [validate, bind_eq_error, reject_eq_error] at h
  rcases h with ⟨-, rfl⟩ | ⟨_, -, ⟨-, rfl⟩ | ⟨_, -, ⟨-, rfl⟩ | ⟨_, -, ⟨-, rfl⟩ | ⟨_, -, hloop | ⟨_, -, hdone⟩⟩⟩⟩⟩
  · exact Or.inr (by decide)
  · exact Or.inr (by decide)
  · exact Or.inr (by decide)
  · exact Or.inr (by decide)
  · obtain ⟨i, hi, hbelow⟩ := validateProxies_error lib host base 0 [] ∅ c.proxies e hloop
    rw [Nat.zero_add] at hbelow
    exact Or.inl ⟨i, hi, hbelow⟩
  · cases hdone

/-! Indices in paths. -/

theorem elementPath_toList (i : ℕ) :
    (elementPath "proxies" i).toList = "proxies[".toList ++ (itoa i ++ [']']) := by
  simp [elementPath]

theorem digits_code : PrefixCode (fun r => ∀ c ∈ r.head?, c.isDigit = false)
    (fun n : ℕ => some (itoa n)) Set.univ := by
  apply prefixCode_of_all
  · intro n _ t ht c hc
    cases ht
    exact itoa_digits n (Int.natCast_nonneg n) c hc
  · intro n _ k _ t hn hk
    have hsame := itoa_injective (Option.some.inj (hn.trans hk.symm))
    exact Int.ofNat.inj hsame

/-- No path is below two proxies: the digits of an index end at the bracket. -/
theorem below_unique (i j : ℕ) (path : List Char) (hi : (elementPath "proxies" i ++ ".").toList <+: path)
    (hj : (elementPath "proxies" j ++ ".").toList <+: path) : i = j := by
  obtain ⟨r, rfl⟩ := hi
  obtain ⟨s, hs⟩ := hj
  simp only [String.toList_append, elementPath_toList, List.append_assoc, List.append_cancel_left_eq,
    List.singleton_append] at hs
  exact ((digits_code j trivial i trivial _ _ _ _ rfl rfl (by simp) (by simp) hs).1).symm

theorem header_not_below (path : String) (i : ℕ)
    (h : path ∈ headerFields) : ¬ (elementPath "proxies" i ++ ".").toList <+: path.toList := by
  intro hbelow
  rw [String.toList_append, elementPath_toList, List.append_assoc] at hbelow
  have hstart : "proxies[".toList <+: path.toList := (List.prefix_append _ _).trans hbelow
  have hnone : ∀ name ∈ headerFields, ¬ "proxies[".toList <+: name.toList := by decide
  exact hnone path h hstart

/-! The search of `finish`. -/

theorem locateError_below (e : FieldError) (root field : String) (k i : ℕ) (sources : List ProxySource)
    (src : ProxySource) (hsrc : sources[i]? = some src)
    (hpath : e.path = elementPath "proxies" (k + i) ++ "." ++ field) :
    locateError e root k sources = ⟨src.file, src.path ++ "." ++ field, e.message⟩ := by
  have hbelow : (elementPath "proxies" (k + i) ++ ".").toList <+: e.path.toList := by
    rw [hpath]
    exact prefix_field (List.prefix_refl _) field
  induction sources generalizing k i with
  | nil => cases hsrc
  | cons first sources ih =>
    unfold locateError
    simp only [ List.isPrefixOf_iff_prefix]
    cases i with
    | zero =>
      cases hsrc
      rw [Nat.add_zero] at hpath hbelow
      have hdrop : String.ofList (e.path.toList.drop (elementPath "proxies" k).toList.length) = "." ++ field := by
        apply String.toList_injective
        simp [hpath]
      have hmatch : (elementPath "proxies" k).toList ++ ['.'] <+: e.path.toList := by
        simpa [String.toList_append] using hbelow
      rw [if_pos hmatch, hdrop, String.append_assoc]
    | succ i =>
      have hother : ¬ (elementPath "proxies" k).toList ++ ['.'] <+: e.path.toList := by
        intro hmatch
        have hfirst : (elementPath "proxies" k ++ ".").toList <+: e.path.toList := by
          simpa [String.toList_append] using hmatch
        have hsame := below_unique k (k + (i + 1)) e.path.toList hfirst hbelow
        omega
      rw [if_neg hother]
      have hnext : k + (i + 1) = k + 1 + i := by omega
      rw [hnext] at hpath hbelow
      exact ih (k + 1) i hsrc hpath hbelow

theorem locateError_other (e : FieldError) (root : String) (k : ℕ) (sources : List ProxySource)
    (h : ∀ i, ¬ (elementPath "proxies" i ++ ".").toList <+: e.path.toList) :
    locateError e root k sources = ⟨root, e.path, e.message⟩ := by
  induction sources generalizing k with
  | nil => rfl
  | cons src sources ih =>
    have hother : ¬ (elementPath "proxies" k).toList ++ ['.'] <+: e.path.toList := by
      simpa [String.toList_append] using h k
    unfold locateError
    simp only [ List.isPrefixOf_iff_prefix]
    rw [if_neg hother]
    exact ih (k + 1)

/-- An error below a proxy is reported in the file that declares the proxy, under its path there; any
other error is reported in the root file. -/
theorem errors_attributed (lib : Library) (host : Host) (c : Config) (sources : List ProxySource)
    (root : String) (proxies : List Proxy) (e : FieldError)
    (hresolve : resolveProxies [] (c.proxies.zip sources) = .ok proxies)
    (hvalidate : validate lib host { c with proxies := proxies } (dirString root) = .error e) :
    (∀ i field, e.path = elementPath "proxies" i ++ "." ++ field → ∃ src, sources[i]? = some src ∧
        finish lib host c sources root =
          .error (.field ⟨src.file, src.path ++ "." ++ field, e.message⟩)) ∧
      ((∀ i field, e.path ≠ elementPath "proxies" i ++ "." ++ field) →
        finish lib host c sources root = .error (.field ⟨root, e.path, e.message⟩)) := by
  have hfinish : finish lib host c sources root = .error (.field (locateError e root 0 sources)) := by
    unfold finish
    rw [hresolve]
    simp only [hvalidate]
  have hlength : proxies.length ≤ sources.length := by
    obtain ⟨-, -, -, rfl⟩ := (resolveProxies_iff [] _ proxies).mp hresolve
    simp [resolved]
  rw [hfinish]
  constructor
  · intro i field hpath
    have hbelow : (elementPath "proxies" i ++ ".").toList <+: e.path.toList := by
      rw [hpath]
      exact prefix_field (List.prefix_refl _) field
    -- the proxy exists, so it has a source
    have hi : i < sources.length := by
      rcases validate_error lib host _ _ e hvalidate with ⟨j, hj, hbelow'⟩ | hheader
      · rw [below_unique i j _ hbelow hbelow']
        exact hj.trans_le hlength
      · exact absurd hbelow (header_not_below e.path i hheader)
    have hsrc := List.getElem?_eq_getElem hi
    refine ⟨sources[i], hsrc, ?_⟩
    rw [locateError_below e root field 0 i sources _ hsrc (by rw [Nat.zero_add]; exact hpath)]
  · intro hnone
    rw [locateError_other e root 0 sources]
    rintro i ⟨field, hfield⟩
    refine hnone i (String.ofList field) ?_
    apply String.toList_injective
    rw [String.toList_append, String.toList_ofList, hfield]

/-- A dozen proxies, one in the root file and the rest in a fragment; the last speaks no known
protocol. -/
def dozenProxies : List Proxy :=
  (List.range 12).map fun i => { sampleProxy [] with
    id := "api-" ++ String.ofList (itoa i)
    listen := "127.0.0.1:" ++ String.ofList (itoa (8000 + i))
    protocol := if i = 11 then "gopher" else "http1" }

def dozenSources : List ProxySource :=
  proxySources "/etc/faultline.yaml" 1 ++ proxySources "/etc/faultline.d/api.yaml" 11

theorem errors_attributed_dozen :
    finish standardLibrary sampleHost { sampleConfig [] with proxies := dozenProxies } dozenSources
        "/etc/faultline.yaml" =
      .error (.field ⟨"/etc/faultline.d/api.yaml", "proxies[10]" ++ "." ++ "protocol",
        "expected http1, http2, grpc, postgresql, mysql or tcp"⟩) := by
  have hresolve : resolveProxies [] (dozenProxies.zip dozenSources) = .ok dozenProxies := by
    decide +kernel
  have hvalidate : validate standardLibrary sampleHost { sampleConfig [] with proxies := dozenProxies }
      (dirString "/etc/faultline.yaml") = .error ⟨"", "proxies[11].protocol",
        "expected http1, http2, grpc, postgresql, mysql or tcp"⟩ := by
    decide +kernel
  have hfragment : dozenSources[11]?.map (fun src => (src.file, src.path)) =
      some ("/etc/faultline.d/api.yaml", "proxies[10]") := by
    decide +kernel
  have hpath : "proxies[11].protocol" = elementPath "proxies" 11 ++ "." ++ "protocol" := by
    decide +kernel
  obtain ⟨src, hsrc, hfinish⟩ := (errors_attributed standardLibrary sampleHost
    { sampleConfig [] with proxies := dozenProxies } dozenSources "/etc/faultline.yaml" dozenProxies
    _ hresolve hvalidate).1 11 "protocol" hpath
  rw [hsrc] at hfragment
  obtain ⟨hfile, hlocal⟩ := Prod.mk.inj (Option.some.inj hfragment)
  rw [hfile, hlocal] at hfinish
  exact hfinish

end Faultline
