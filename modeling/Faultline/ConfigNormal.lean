import Faultline.ConfigLoad
import Faultline.ConfigValid

/-! What `validate` and `finish` accept and what they return, said without the field paths of
their errors and without the maps they fill on the way: a proxy is normalized on its own, and
a configuration is accepted when its proxies are and nothing in it occurs twice. -/
namespace Faultline

/-! Results without their errors. -/

@[simp] theorem toOption_bind {ε α β : Type} (x : Except ε α) (f : α → Except ε β) :
    (x >>= f).toOption = x.toOption.bind (fun a => (f a).toOption) := by
  cases x <;> rfl

@[simp] theorem toOption_pure {ε α : Type} (a : α) : (pure a : Except ε α).toOption = some a := rfl

@[simp] theorem toOption_ok {ε α : Type} (a : α) : (Except.ok a : Except ε α).toOption = some a := rfl

@[simp] theorem toOption_invalid {α : Type} (path message : String) :
    (invalid path message : Except FieldError α).toOption = none := rfl

@[simp] theorem toOption_reject (cond : Prop) [Decidable cond] (path message : String) :
    (reject cond path message).toOption = if cond then none else some () := by
  unfold reject
  split_ifs <;> rfl

theorem toOption_eq_some {ε α : Type} (x : Except ε α) (a : α) : x.toOption = some a ↔ x = .ok a := by
  cases x with
  | error e =>
    constructor
    · intro h
      cases h
    · intro h
      cases h
  | ok b =>
    constructor
    · intro h
      cases h
      rfl
    · intro h
      cases h
      rfl

theorem toOption_ite {ε α : Type} (cond : Prop) [Decidable cond] (x y : Except ε α) :
    (if cond then x else y).toOption = if cond then x.toOption else y.toOption := by
  split_ifs <;> rfl

@[simp] theorem ite_none_bind {α : Type} (cond : Prop) [Decidable cond] (f : Unit → Option α) :
    (if cond then none else some ()).bind f = if cond then none else f () := by
  split_ifs <;> rfl

/-! The paths of errors. -/

theorem validateProtocols_free (path id protocol upstreamProtocol : String) :
    (validateProtocols path id protocol upstreamProtocol).toOption =
      (validateProtocols "" id protocol upstreamProtocol).toOption := by
  simp only [validateProtocols, toOption_bind, toOption_reject]

theorem validateListen_free (path listen : String) :
    (validateListen path listen).toOption = (validateListen "" listen).toOption := by
  unfold validateListen
  split
  · rfl
  · split
    · rfl
    · simp only [toOption_bind, toOption_reject, toOption_pure]

theorem validateTCPUpstream_free (path upstream listen : String) :
    (validateTCPUpstream path upstream listen).toOption =
      (validateTCPUpstream "" upstream listen).toOption := by
  unfold validateTCPUpstream
  split
  · rfl
  · simp only [toOption_bind, toOption_reject]
    congr 1
    funext _
    split
    · rfl
    · simp only [toOption_bind, toOption_reject, toOption_pure]

theorem originPort_free (protocol : String) (u : URL) (path : String) :
    (originPort protocol u path).toOption = (originPort protocol u "").toOption := by
  unfold originPort
  simp only [toOption_ite, toOption_bind, toOption_reject, toOption_pure]
  congr 1
  split
  · rfl
  · simp only [toOption_ite, toOption_bind, toOption_reject, toOption_pure]

theorem validateOrigin_free (path protocol upstream : String) :
    (validateOrigin path protocol upstream).toOption =
      (validateOrigin "" protocol upstream).toOption := by
  unfold validateOrigin
  split
  · rfl
  · simp only [toOption_bind, toOption_reject, toOption_pure, originPort_free _ _ path]

theorem validateSelector_free (s : Selector) (path : String) :
    (validateSelector s path).toOption = (validateSelector s "").toOption := by
  simp only [validateSelector, toOption_bind, toOption_reject, toOption_pure]

theorem validateAction_free (f : Fault) (path : String) :
    (validateAction f path).toOption = (validateAction f "").toOption := by
  simp only [validateAction, toOption_ite, toOption_bind, toOption_reject]

theorem validateFault_free (f : Fault) (path : String) :
    (validateFault f path).toOption = (validateFault f "").toOption := by
  simp only [validateFault, toOption_bind, toOption_reject, validateAction_free f path]

theorem validateHeaders_free (path : String) (es : List (String × String)) (headers : OrdMap String String) :
    (validateHeaders path es headers).toOption = (validateHeaders "" es headers).toOption := by
  induction es generalizing headers with
  | nil => rfl
  | cons e es ih =>
    obtain ⟨name, value⟩ := e
    simp only [validateHeaders, toOption_bind, toOption_reject, ih]

theorem validateRule_free (r : Rule) (path : String) :
    (validateRule r path).toOption = (validateRule r "").toOption := by
  simp only [validateRule, toOption_bind, toOption_reject, toOption_pure, validateHeaders_free path,
    validateSelector_free _ path, validateFault_free _ (path ++ ".fault"),
    validateFault_free _ ("" ++ ".fault")]

theorem validateTCPAction_free (f : Fault) (path : String) :
    (validateTCPAction f path).toOption = (validateTCPAction f "").toOption := by
  simp only [validateTCPAction, toOption_ite, toOption_reject, toOption_invalid]

theorem validateTCPRule_free (r : Rule) (path : String) :
    (validateTCPRule r path).toOption = (validateTCPRule r "").toOption := by
  simp only [validateTCPRule, toOption_bind, toOption_reject, toOption_pure,
    validateSelector_free _ path, validateTCPAction_free _ path]

theorem validateCommitRule_free (r : Rule) (path : String) :
    (validateCommitRule r path).toOption = (validateCommitRule r "").toOption := by
  simp only [validateCommitRule, toOption_bind, toOption_reject, toOption_pure, validateRule_free _ path]

theorem validateProxyRule_free (protocol : String) (r : Rule) (path : String) :
    (validateProxyRule protocol r path).toOption = (validateProxyRule protocol r "").toOption := by
  simp only [validateProxyRule, toOption_bind, toOption_reject, toOption_ite,
    validateCommitRule_free _ path, validateTCPRule_free _ path, validateRule_free _ path]

def normalizeRules (protocol : String) (rules : List Rule) : Option (List Rule) :=
  rules.mapM (fun r => (validateProxyRule protocol r "").toOption)

theorem validateRules_eq (protocol path : String) (j : ℕ) (rules : List Rule) :
    (validateRules protocol path j rules).toOption = normalizeRules protocol rules := by
  induction rules generalizing j with
  | nil => rfl
  | cons r rules ih =>
    simp only [validateRules, toOption_bind, toOption_pure, validateProxyRule_free _ _ (elementPath _ _),
      ih, normalizeRules, List.mapM_cons]
    rfl

/-! TLS files. -/

def ListenerTLS.files (t : ListenerTLS) : List String :=
  [t.certFile, t.keyFile, t.clientCAFile].filter (· ≠ "")

def UpstreamTLS.files (t : UpstreamTLS) : List String :=
  [t.caFile, t.certFile, t.keyFile].filter (· ≠ "")

def Proxy.tlsFiles (p : Proxy) : List String :=
  (p.tls.map ListenerTLS.files).getD [] ++ (p.upstreamTLS.map UpstreamTLS.files).getD []

def Config.tlsFiles (c : Config) : List String := c.proxies.flatMap Proxy.tlsFiles

section Files
variable (lib : Library) (host : Host)

def addFiles (t : Digests) (files : List String) : Digests :=
  files.foldl (fun t name => match host.readFile name with
    | some data => t.insert name (lib.sha256 data)
    | none => t) t

def Config.digests (c : Config) : Digests := addFiles lib host ∅ c.tlsFiles

theorem addFiles_append (t : Digests) (a b : List String) :
    addFiles lib host t (a ++ b) = addFiles lib host (addFiles lib host t a) b := List.foldl_append

theorem addFiles_get? (t : Digests) (files : List String) (hread : ∀ f ∈ files, (host.readFile f).isSome)
    (name : String) : (addFiles lib host t files).get? name =
      if name ∈ files then (host.readFile name).map lib.sha256 else t.get? name := by
  induction files using List.reverseRecOn with
  | nil => rfl
  | append_singleton files f ih =>
    have ih := ih (fun g hg => hread g (List.mem_append_left _ hg))
    obtain ⟨data, hdata⟩ := Option.isSome_iff_exists.mp (hread f (by simp))
    have hlast : addFiles lib host t (files ++ [f]) =
        (addFiles lib host t files).insert f (lib.sha256 data) := by
      rw [addFiles_append]
      simp [addFiles, hdata]
    rw [hlast, OrdMap.get?_insert, ih]
    by_cases hname : name = f
    · simp [hname, hdata]
    · simp [hname]

def keyPairOK (cert key : String) : Bool :=
  match host.readFile cert, host.readFile key with
  | some certData, some keyData => lib.x509KeyPair certData keyData
  | _, _ => false

def caOK (name : String) : Bool :=
  match host.readFile name with
  | none => false
  | some data => (countCertificates lib "" 0 data).toOption.any (· ≠ 0)

theorem countCertificates_free (field : String) (count : ℕ) (data : Bytes) :
    (countCertificates lib field count data).toOption =
      (countCertificates lib "" count data).toOption := by
  induction hn : data.length using Nat.strong_induction_on generalizing data count with
  | _ n ih =>
    unfold countCertificates
    by_cases hempty : data = []
    · simp [hempty]
    · rw [if_neg hempty, if_neg hempty]
      split
      · rfl
      · next block hblock =>
        have hshort := lib.pemDecode_rest data block hblock
        have htrim := length_trimSpace block.rest
        split_ifs
        · rfl
        · rfl
        · exact ih _ (by omega) _ _ rfl

variable (base : String)

def optionalFile (name : String) : String := if name = "" then "" else tlsFileName base name

theorem readTLS_eq (name field : String) (t : Digests) : (readTLS lib host base name field t).toOption =
    if name = "" then none else (host.readFile (tlsFileName base name)).map
      (fun data => (tlsFileName base name, data, addFiles lib host t [tlsFileName base name])) := by
  unfold readTLS
  simp only [toOption_bind, toOption_reject, ite_none_bind]
  by_cases hname : name = ""
  · simp [hname]
  · rw [if_neg hname, if_neg hname]
    cases hread : host.readFile (tlsFileName base name) with
    | none => rfl
    | some data => simp [addFiles, hread]

theorem readKeyPair_eq (cert key path : String) (t : Digests) :
    (readKeyPair lib host base cert key path t).toOption =
      if cert ≠ "" ∧ key ≠ "" ∧ keyPairOK lib host (tlsFileName base cert) (tlsFileName base key) then
        some (tlsFileName base cert, tlsFileName base key,
          addFiles lib host t [tlsFileName base cert, tlsFileName base key])
      else none := by
  unfold readKeyPair keyPairOK
  simp only [toOption_bind, toOption_reject, toOption_pure, readTLS_eq]
  by_cases hcert : cert = ""
  · simp [hcert]
  by_cases hkey : key = ""
  · simp [hcert, hkey]
  cases hc : host.readFile (tlsFileName base cert) with
  | none => simp [hcert]
  | some certData =>
    cases hk : host.readFile (tlsFileName base key) with
    | none => simp [hcert, hkey]
    | some keyData =>
      by_cases hpair : lib.x509KeyPair certData keyData = true
      · simp [hcert, hkey, hpair, addFiles]
      · simp [hcert, hkey, hpair]

theorem validateCA_eq (name field : String) (t : Digests) :
    (validateCA lib host base name field t).toOption =
      if name ≠ "" ∧ caOK lib host (tlsFileName base name) then
        some (tlsFileName base name, addFiles lib host t [tlsFileName base name])
      else none := by
  unfold validateCA caOK
  simp only [toOption_bind, toOption_reject, toOption_pure, readTLS_eq, countCertificates_free lib field]
  by_cases hname : name = ""
  · simp [hname]
  cases hread : host.readFile (tlsFileName base name) with
  | none => simp [hname]
  | some data =>
    cases hcount : (countCertificates lib "" 0 data).toOption with
    | none => simp [hname, hcount]
    | some count =>
      by_cases hzero : count = 0
      · simp [hname, hcount, hzero]
      · simp [hname, hcount, hzero]

theorem mem_cleanStep (rooted : Bool) (stack : List (List Char)) (elem e : List Char)
    (h : e ∈ cleanStep rooted stack elem) : e ∈ stack ∨ e = elem ∧ elem ≠ [] := by
  unfold cleanStep at h
  by_cases hskip : elem = [] ∨ elem = ['.']
  · rw [if_pos hskip] at h
    exact Or.inl h
  have hne : elem ≠ [] := fun hnil => hskip (Or.inl hnil)
  have hpush (h : e ∈ elem :: stack) : e ∈ stack ∨ e = elem ∧ elem ≠ [] := by
    rcases List.mem_cons.mp h with he | he
    · exact Or.inr ⟨he, hne⟩
    · exact Or.inl he
  rw [if_neg hskip] at h
  by_cases hup : elem = ['.', '.']
  · rw [if_pos hup] at h
    cases stack with
    | nil =>
      cases rooted with
      | true => cases h
      | false => exact hpush h
    | cons top rest =>
      by_cases htop : top = ['.', '.']
      · simp only [if_pos htop] at h
        exact hpush h
      · simp only [if_neg htop] at h
        exact Or.inl (List.mem_cons_of_mem _ h)
  · rw [if_neg hup] at h
    exact hpush h

theorem foldl_cleanStep_ne_nil (rooted : Bool) (elems stack : List (List Char))
    (h : ∀ e ∈ stack, e ≠ []) : ∀ e ∈ elems.foldl (cleanStep rooted) stack, e ≠ [] := by
  induction elems generalizing stack with
  | nil => exact h
  | cons elem elems ih =>
    apply ih
    intro e he
    rcases mem_cleanStep rooted stack elem e he with he | ⟨he, hne⟩
    · exact h e he
    · exact he ▸ hne

theorem clean_ne_nil (path : List Char) : clean path ≠ [] := by
  unfold clean
  simp only
  split_ifs with habs hnil
  · exact List.cons_ne_nil _ _
  · exact List.cons_ne_nil _ _
  · have hall : ∀ e ∈ (cleanStack (isAbs path) path).reverse, e ≠ [] := by
      intro e he
      exact foldl_cleanStep_ne_nil (isAbs path) _ [] (fun e he => by cases he) e (List.mem_reverse.mp he)
    cases hcomps : (cleanStack (isAbs path) path).reverse with
    | nil => exact absurd hcomps hnil
    | cons e comps =>
      have he := hall e (by rw [hcomps]; exact List.mem_cons_self)
      cases comps with
      | nil => simpa using he
      | cons f comps =>
        rw [List.intercalate_cons_cons]
        simp [he]

theorem tlsFileName_ne (name : String) : tlsFileName base name ≠ "" := by
  intro h
  have hlist := congrArg String.toList h
  rw [tlsFileName, String.toList_ofList] at hlist
  exact clean_ne_nil _ hlist

theorem validateOptionalCA_eq (name field : String) (t : Digests) :
    (validateOptionalCA lib host base name field t).toOption =
      if name = "" ∨ caOK lib host (tlsFileName base name) then
        some (optionalFile base name, addFiles lib host t ([optionalFile base name].filter (· ≠ "")))
      else none := by
  unfold validateOptionalCA optionalFile
  rw [toOption_ite, validateCA_eq]
  by_cases hname : name = ""
  · simp [hname, addFiles]
  · simp [hname, tlsFileName_ne base name]

def ListenerTLS.absolute (t : ListenerTLS) : ListenerTLS :=
  ⟨tlsFileName base t.certFile, tlsFileName base t.keyFile, optionalFile base t.clientCAFile⟩

def ListenerTLS.ok (t : ListenerTLS) : Bool :=
  t.certFile ≠ "" && t.keyFile ≠ "" &&
    keyPairOK lib host (tlsFileName base t.certFile) (tlsFileName base t.keyFile) &&
    (t.clientCAFile = "" || caOK lib host (tlsFileName base t.clientCAFile))

theorem validateListenerTLS_eq (path : String) (t : Option ListenerTLS) (digests : Digests) :
    (validateListenerTLS lib host base path t digests).toOption =
      if t.all (ListenerTLS.ok lib host base) then
        some (t.map (ListenerTLS.absolute base), addFiles lib host digests
          (((t.map (ListenerTLS.absolute base)).map ListenerTLS.files).getD []))
      else none := by
  cases t with
  | none => rfl
  | some t =>
    unfold validateListenerTLS
    simp only [toOption_bind, toOption_pure, readKeyPair_eq, validateOptionalCA_eq, Option.all_some,
      Option.map_some, Option.getD_some]
    by_cases hpair : t.certFile ≠ "" ∧ t.keyFile ≠ "" ∧
        keyPairOK lib host (tlsFileName base t.certFile) (tlsFileName base t.keyFile) = true
    · rw [if_pos hpair]
      by_cases hca : t.clientCAFile = "" ∨ caOK lib host (tlsFileName base t.clientCAFile) = true
      · have hfiles : (t.absolute base).files = [tlsFileName base t.certFile, tlsFileName base t.keyFile] ++
            [optionalFile base t.clientCAFile].filter (· ≠ "") := by
          simp [ListenerTLS.files, ListenerTLS.absolute, tlsFileName_ne, List.filter_cons]
        rw [if_pos (by simpa [ListenerTLS.ok, hpair] using hca), hfiles, addFiles_append]
        simp [hca, ListenerTLS.absolute]
      · rw [if_neg (by simpa [ListenerTLS.ok, hpair] using hca)]
        simp [hca]
    · rw [if_neg hpair, if_neg]
      · rfl
      · intro hok
        simp only [ListenerTLS.ok, Bool.and_eq_true, decide_eq_true_eq] at hok
        exact hpair ⟨hok.1.1.1, hok.1.1.2, hok.1.2⟩

def UpstreamTLS.absolute (t : UpstreamTLS) : UpstreamTLS :=
  ⟨optionalFile base t.caFile, optionalFile base t.certFile, optionalFile base t.keyFile⟩

def UpstreamTLS.ok (t : UpstreamTLS) : Bool :=
  (t.caFile = "" || caOK lib host (tlsFileName base t.caFile)) &&
    (if t.certFile = "" ∧ t.keyFile = "" then t.caFile ≠ ""
      else t.certFile ≠ "" && t.keyFile ≠ "" &&
        keyPairOK lib host (tlsFileName base t.certFile) (tlsFileName base t.keyFile))

def tlsUpstream (upstream : String) : Bool :=
  hasPrefix upstream "https://" || hasPrefix upstream "postgresqls://" || hasPrefix upstream "mysqls://"

theorem validateUpstreamTLS_eq (path upstream : String) (t : Option UpstreamTLS) (digests : Digests) :
    (validateUpstreamTLS lib host base path upstream t digests).toOption =
      if t.all (fun t => tlsUpstream upstream && t.ok lib host base) then
        some (t.map (UpstreamTLS.absolute base), addFiles lib host digests
          (((t.map (UpstreamTLS.absolute base)).map UpstreamTLS.files).getD []))
      else none := by
  cases t with
  | none => rfl
  | some t =>
    unfold validateUpstreamTLS
    simp only [toOption_bind, toOption_reject, ite_none_bind, toOption_ite, toOption_pure,
      readKeyPair_eq, validateOptionalCA_eq, Option.all_some, Option.map_some, Option.getD_some]
    have hreject : (¬ hasPrefix upstream "https://" = true ∧ ¬ hasPrefix upstream "postgresqls://" = true ∧
        ¬ hasPrefix upstream "mysqls://" = true) ↔ ¬ tlsUpstream upstream = true := by
      simp [tlsUpstream, and_assoc]
    simp only [hreject]
    by_cases hscheme : tlsUpstream upstream = true
    · by_cases hca : t.caFile = "" ∨ caOK lib host (tlsFileName base t.caFile) = true
      · by_cases hnone : t.certFile = "" ∧ t.keyFile = ""
        · by_cases hempty : t.caFile = ""
          · have hok : t.ok lib host base = false := by simp [UpstreamTLS.ok, hnone, hempty]
            simp [hscheme, hok, hnone, hempty]
          · have hok : t.ok lib host base = true := by
              simpa [UpstreamTLS.ok, hnone, hempty] using hca
            have hfiles : (t.absolute base).files = [tlsFileName base t.caFile] := by
              simp [UpstreamTLS.files, UpstreamTLS.absolute, hnone, optionalFile, hempty, tlsFileName_ne]
            have hread : caOK lib host (tlsFileName base t.caFile) = true := hca.resolve_left hempty
            rw [hfiles]
            simp [hscheme, hok, hnone, hempty, hread, UpstreamTLS.absolute, optionalFile, tlsFileName_ne]
        · by_cases hpair : t.certFile ≠ "" ∧ t.keyFile ≠ "" ∧
              keyPairOK lib host (tlsFileName base t.certFile) (tlsFileName base t.keyFile) = true
          · have hok : t.ok lib host base = true := by
              simpa [UpstreamTLS.ok, hpair] using hca
            have hfiles : (t.absolute base).files = [optionalFile base t.caFile].filter (· ≠ "") ++
                [tlsFileName base t.certFile, tlsFileName base t.keyFile] := by
              by_cases hempty : t.caFile = ""
              · simp [UpstreamTLS.files, UpstreamTLS.absolute, hpair, optionalFile, tlsFileName_ne, hempty]
              · simp [UpstreamTLS.files, UpstreamTLS.absolute, hpair, optionalFile, tlsFileName_ne, hempty]
            rw [hfiles, addFiles_append]
            simp [hscheme, hok, hca, hpair, UpstreamTLS.absolute, optionalFile]
          · have hok : t.ok lib host base = false := by
              by_contra hok
              simp only [UpstreamTLS.ok, if_neg hnone, Bool.not_eq_false, Bool.and_eq_true,
                decide_eq_true_eq] at hok
              exact hpair ⟨hok.2.1.1, hok.2.1.2, hok.2.2⟩
            have hsome : t.certFile ≠ "" ∨ t.keyFile ≠ "" := by
              by_contra hboth
              exact hnone (by simpa using hboth)
            simp only [if_pos hsome, if_neg hpair, hok, Bool.and_false, Bool.false_eq_true, if_false,
              Option.bind_none, Option.bind_fun_none, ite_self]
      · have hok : t.ok lib host base = false := by
          by_contra hok
          simp only [UpstreamTLS.ok, Bool.not_eq_false, Bool.and_eq_true, Bool.or_eq_true,
            decide_eq_true_eq] at hok
          exact hca hok.1
        simp [hca, hok]
    · simp [hscheme]

/-! Proxies. -/

def Proxy.absolute (p : Proxy) : Proxy :=
  { p with
    tls := p.tls.map (ListenerTLS.absolute base)
    upstreamTLS := p.upstreamTLS.map (UpstreamTLS.absolute base) }

/-- The TLS parts fit the protocol: no client certificates for a database, and for mysql both
legs or none. -/
def Proxy.legsOK (p : Proxy) : Prop :=
  ¬ (isDatabase p.protocol = true ∧ (p.tls.any (fun t => t.clientCAFile ≠ "") = true ∨
      p.upstreamTLS.any (fun t => t.certFile ≠ "" || t.keyFile ≠ "") = true)) ∧
    ¬ (p.protocol = "mysql" ∧ p.tls.isSome ≠ hasPrefix p.upstream "mysqls://")

instance (p : Proxy) : Decidable p.legsOK := by
  unfold Proxy.legsOK
  infer_instance

/-- What `validateTLS` asks of a proxy. -/
def Proxy.tlsOK (p : Proxy) : Prop :=
  p.legsOK ∧ p.tls.all (ListenerTLS.ok lib host base) = true ∧
    p.upstreamTLS.all (fun t => tlsUpstream p.upstream && t.ok lib host base) = true

instance (p : Proxy) : Decidable (p.tlsOK lib host base) := by
  unfold Proxy.tlsOK
  infer_instance

theorem validateTLS_eq (path : String) (p : Proxy) (t : Digests) :
    (validateTLS lib host base path p t).toOption =
      if p.tlsOK lib host base then
        some (p.absolute base, addFiles lib host t (p.absolute base).tlsFiles)
      else none := by
  unfold validateTLS
  simp only [toOption_bind, toOption_reject, ite_none_bind, toOption_pure, validateListenerTLS_eq,
    validateUpstreamTLS_eq]
  by_cases hlegs : p.legsOK
  · rw [if_neg hlegs.1, if_neg hlegs.2]
    by_cases htls : p.tls.all (ListenerTLS.ok lib host base) = true
    · by_cases hup : p.upstreamTLS.all (fun t => tlsUpstream p.upstream && t.ok lib host base) = true
      · rw [if_pos htls, if_pos (show p.tlsOK lib host base from ⟨hlegs, htls, hup⟩), Option.bind_some,
          if_pos hup, Option.bind_some]
        simp only [Proxy.tlsFiles, Proxy.absolute, addFiles_append]
      · rw [if_pos htls, if_neg (fun h : p.tlsOK lib host base => hup h.2.2), Option.bind_some,
          if_neg hup]
        rfl
    · rw [if_neg htls, if_neg (fun h : p.tlsOK lib host base => htls h.2.1)]
      rfl
  · rw [if_neg (fun h : p.tlsOK lib host base => hlegs h.1)]
    by_cases hfirst : isDatabase p.protocol = true ∧ (p.tls.any (fun t => t.clientCAFile ≠ "") = true ∨
        p.upstreamTLS.any (fun t => t.certFile ≠ "" || t.keyFile ≠ "") = true)
    · rw [if_pos hfirst]
    · have hsecond : p.protocol = "mysql" ∧ p.tls.isSome ≠ hasPrefix p.upstream "mysqls://" := by
        by_contra hnot
        exact hlegs ⟨hfirst, hnot⟩
      rw [if_neg hfirst, if_pos hsecond]

def normalizeUpstream (p : Proxy) : Option Proxy :=
  if p.protocol = "tcp" then
    (validateTCPUpstream "" p.upstream p.listen).toOption.bind (fun upstream =>
      if p.tls.isSome ∨ p.upstreamTLS.isSome then none else some { p with upstream := upstream })
  else
    (validateOrigin "" p.protocol p.upstream).toOption.bind (fun upstream =>
      if ({ p with upstream := upstream } : Proxy).tlsOK lib host base then
        some (({ p with upstream := upstream } : Proxy).absolute base)
      else none)

theorem validateUpstream_eq (path : String) (p : Proxy) (t : Digests) :
    (validateUpstream lib host base path p t).toOption =
      (normalizeUpstream lib host base p).map (fun q => (q, addFiles lib host t q.tlsFiles)) := by
  unfold validateUpstream normalizeUpstream
  by_cases htcp : p.protocol = "tcp"
  · rw [if_pos htcp, if_pos htcp]
    simp only [toOption_bind, toOption_reject, ite_none_bind, toOption_pure, validateTCPUpstream_free path]
    cases (validateTCPUpstream "" p.upstream p.listen).toOption with
    | none => rfl
    | some upstream =>
      by_cases htls : p.tls.isSome = true ∨ p.upstreamTLS.isSome = true
      · simp [htls]
      · have htls' : p.tls = none ∧ p.upstreamTLS = none := by simpa using htls
        simp [htls', Proxy.tlsFiles, addFiles]
  · rw [if_neg htcp, if_neg htcp]
    simp only [toOption_bind, validateOrigin_free path, validateTLS_eq]
    cases (validateOrigin "" p.protocol p.upstream).toOption with
    | none => rfl
    | some upstream =>
      simp only [Option.bind_some]
      split_ifs <;> rfl

def normalizeInfra (p : Proxy) : Option Proxy :=
  (validateProtocols "" p.id p.protocol p.upstreamProtocol).toOption.bind (fun _ =>
    (validateListen "" p.listen).toOption.bind (fun listen =>
      normalizeUpstream lib host base { p with
        upstreamProtocol := defaultUpstreamProtocol p.protocol p.upstreamProtocol
        listen := listen }))

def normalizeProxy (p : Proxy) : Option Proxy :=
  (normalizeInfra lib host base p).bind (fun q =>
    (normalizeRules p.protocol p.ruleList).map (fun rules => { q with rules := some rules }))

theorem normalizeUpstream_keeps (p q : Proxy) (h : normalizeUpstream lib host base p = some q) :
    ∃ upstream tls upstreamTLS,
      q = { p with upstream := upstream, tls := tls, upstreamTLS := upstreamTLS } := by
  unfold normalizeUpstream at h
  by_cases htcp : p.protocol = "tcp"
  · rw [if_pos htcp, Option.bind_eq_some_iff] at h
    obtain ⟨upstream, -, hq⟩ := h
    split_ifs at hq
    cases hq
    exact ⟨upstream, p.tls, p.upstreamTLS, rfl⟩
  · rw [if_neg htcp, Option.bind_eq_some_iff] at h
    obtain ⟨upstream, -, hq⟩ := h
    split_ifs at hq
    cases hq
    exact ⟨upstream, _, _, rfl⟩

/-! The files of a normalized proxy can be read. -/

theorem keyPairOK_readable (cert key : String) (h : keyPairOK lib host cert key = true) :
    (host.readFile cert).isSome ∧ (host.readFile key).isSome := by
  unfold keyPairOK at h
  cases hc : host.readFile cert with
  | none => simp [hc] at h
  | some certData =>
    cases hk : host.readFile key with
    | none => simp [hk] at h
    | some keyData => exact ⟨rfl, rfl⟩

theorem caOK_readable (name : String) (h : caOK lib host name = true) : (host.readFile name).isSome := by
  unfold caOK at h
  cases hread : host.readFile name with
  | none => simp [hread] at h
  | some data => rfl

theorem ListenerTLS.readable (t : ListenerTLS) (h : t.ok lib host base = true) :
    ∀ f ∈ (t.absolute base).files, (host.readFile f).isSome := by
  simp only [ListenerTLS.ok, Bool.and_eq_true, Bool.or_eq_true, decide_eq_true_eq] at h
  obtain ⟨⟨-, hpair⟩, hca⟩ := h
  obtain ⟨hcert, hkey⟩ := keyPairOK_readable lib host _ _ hpair
  intro f hf
  obtain ⟨hmem, hne⟩ := List.mem_filter.mp hf
  simp only [ListenerTLS.absolute, List.mem_cons, List.not_mem_nil, or_false] at hmem
  rcases hmem with rfl | rfl | rfl
  · exact hcert
  · exact hkey
  · by_cases hempty : t.clientCAFile = ""
    · simp [optionalFile, hempty] at hne
    · rw [optionalFile, if_neg hempty]
      exact caOK_readable lib host _ (hca.resolve_left hempty)

theorem UpstreamTLS.readable (t : UpstreamTLS) (h : t.ok lib host base = true) :
    ∀ f ∈ (t.absolute base).files, (host.readFile f).isSome := by
  simp only [UpstreamTLS.ok, Bool.and_eq_true, Bool.or_eq_true, decide_eq_true_eq] at h
  obtain ⟨hca, hpair⟩ := h
  intro f hf
  obtain ⟨hmem, hne⟩ := List.mem_filter.mp hf
  simp only [UpstreamTLS.absolute, List.mem_cons, List.not_mem_nil, or_false] at hmem
  -- a name that is not empty is that of a file
  have hname (name : String) (hf : f = optionalFile base name) : name ≠ "" ∧ f = tlsFileName base name := by
    unfold optionalFile at hf
    split_ifs at hf with hempty
    · exact absurd hf (by simpa using hne)
    · exact ⟨hempty, hf⟩
  rcases hmem with hf | hf | hf
  · obtain ⟨hempty, rfl⟩ := hname _ hf
    exact caOK_readable lib host _ (hca.resolve_left hempty)
  · obtain ⟨hempty, rfl⟩ := hname _ hf
    rw [if_neg (fun hboth => hempty hboth.1)] at hpair
    simp only [Bool.and_eq_true] at hpair
    exact (keyPairOK_readable lib host _ _ hpair.2).1
  · obtain ⟨hempty, rfl⟩ := hname _ hf
    rw [if_neg (fun hboth => hempty hboth.2)] at hpair
    simp only [Bool.and_eq_true] at hpair
    exact (keyPairOK_readable lib host _ _ hpair.2).2

theorem normalizeUpstream_readable (p q : Proxy) (h : normalizeUpstream lib host base p = some q) :
    ∀ f ∈ q.tlsFiles, (host.readFile f).isSome := by
  unfold normalizeUpstream at h
  by_cases htcp : p.protocol = "tcp"
  · rw [if_pos htcp, Option.bind_eq_some_iff] at h
    obtain ⟨upstream, -, hq⟩ := h
    split_ifs at hq with htls
    cases hq
    have hnone : p.tls = none ∧ p.upstreamTLS = none := by simpa using htls
    simp [Proxy.tlsFiles, hnone]
  · rw [if_neg htcp, Option.bind_eq_some_iff] at h
    obtain ⟨upstream, -, hq⟩ := h
    split_ifs at hq with hok
    cases hq
    obtain ⟨-, htls, hup⟩ := hok
    intro f hf
    rcases List.mem_append.mp hf with hf | hf
    · cases ht : p.tls with
      | none => simp [Proxy.absolute, ht] at hf
      | some t =>
        simp only [ht, Option.all_some] at htls
        simp only [Proxy.absolute, ht, Option.map_some, Option.getD_some] at hf
        exact t.readable lib host base htls f hf
    · cases ht : p.upstreamTLS with
      | none => simp [Proxy.absolute, ht] at hf
      | some t =>
        simp only [ht, Option.all_some, Bool.and_eq_true] at hup
        simp only [Proxy.absolute, ht, Option.map_some, Option.getD_some] at hf
        exact t.readable lib host base hup.2 f hf

theorem normalizeProxy_readable (p q : Proxy) (h : normalizeProxy lib host base p = some q) :
    ∀ f ∈ q.tlsFiles, (host.readFile f).isSome := by
  unfold normalizeProxy normalizeInfra at h
  simp only [Option.bind_eq_some_iff, Option.map_eq_some_iff] at h
  obtain ⟨r, ⟨_, -, listen, -, hr⟩, rules, -, rfl⟩ := h
  exact normalizeUpstream_readable lib host base _ r hr

theorem validateProxy_eq (path : String) (listeners : List String) (t : Digests) (p : Proxy) :
    (validateProxy lib host base path listeners t p).toOption =
      (normalizeProxy lib host base p).bind (fun q =>
        if q.listen ∈ listeners then none else some (q, addFiles lib host t q.tlsFiles)) := by
  unfold validateProxy normalizeProxy normalizeInfra
  simp only [toOption_bind, toOption_reject, ite_none_bind, toOption_pure, validateProtocols_free path,
    validateListen_free path, validateUpstream_eq, validateRules_eq]
  cases (validateProtocols "" p.id p.protocol p.upstreamProtocol).toOption with
  | none => rfl
  | some u =>
    cases (validateListen "" p.listen).toOption with
    | none => rfl
    | some listen =>
      simp only [Option.bind_some]
      cases hq : normalizeUpstream lib host base { p with
          upstreamProtocol := defaultUpstreamProtocol p.protocol p.upstreamProtocol
          listen := listen } with
      | none =>
        simp only [Option.map_none, Option.bind_none, ite_self]
      | some q =>
        obtain ⟨upstream, tls, upstreamTLS, rfl⟩ := normalizeUpstream_keeps lib host base _ q hq
        simp only [Option.map_some, Option.bind_some]
        cases hrules : normalizeRules p.protocol p.ruleList with
        | none =>
          simp only [Proxy.ruleList] at hrules ⊢
          simp [hrules]
        | some rules =>
          simp only [Proxy.ruleList] at hrules ⊢
          simp only [hrules, Option.map_some, Option.bind_some]
          rfl

theorem validateProxies_eq (i : ℕ) (listeners : List String) (t t' : Digests) (ps qs : List Proxy) :
    validateProxies lib host base i listeners t ps = .ok (qs, t') ↔
      ps.mapM (normalizeProxy lib host base) = some qs ∧ (qs.map Proxy.listen).Nodup ∧
        (∀ q ∈ qs, q.listen ∉ listeners) ∧ t' = addFiles lib host t (qs.flatMap Proxy.tlsFiles) := by
  rw [← toOption_eq_some]
  induction ps generalizing i listeners t qs with
  | nil =>
    simp only [validateProxies, toOption_ok, List.mapM_nil, Option.pure_def, Option.some.injEq,
      Prod.mk.injEq]
    constructor
    · rintro ⟨rfl, rfl⟩
      simp [addFiles]
    · rintro ⟨rfl, -, -, rfl⟩
      exact ⟨rfl, rfl⟩
  | cons p ps ih =>
    simp only [validateProxies, toOption_bind, toOption_pure, validateProxy_eq, List.mapM_cons,
      Option.bind_eq_bind, Option.pure_def]
    cases hq : normalizeProxy lib host base p with
    | none => simp
    | some q =>
      simp only [Option.bind_some]
      by_cases hlisten : q.listen ∈ listeners
      · rw [if_pos hlisten]
        constructor
        · intro h
          cases h
        · rintro ⟨hqs, -, hfresh, -⟩
          obtain ⟨rest, -, heq⟩ := Option.bind_eq_some_iff.mp hqs
          cases heq
          exact absurd hlisten (hfresh q List.mem_cons_self)
      · rw [if_neg hlisten, Option.bind_some]
        constructor
        · intro h
          obtain ⟨⟨rest, t''⟩, hrest, heq⟩ := Option.bind_eq_some_iff.mp h
          cases heq
          obtain ⟨hmap, hnodup, hfresh, hdigests⟩ := (ih _ _ _ rest).mp hrest
          refine ⟨by rw [hmap]; rfl, ?_, ?_, ?_⟩
          · rw [List.map_cons, List.nodup_cons]
            refine ⟨fun hmem => ?_, hnodup⟩
            obtain ⟨r, hr, hlr⟩ := List.mem_map.mp hmem
            exact hfresh r hr (hlr ▸ List.mem_cons_self)
          · intro r hr
            rcases List.mem_cons.mp hr with rfl | hr
            · exact hlisten
            · exact fun hmem => hfresh r hr (List.mem_cons_of_mem _ hmem)
          · rw [hdigests, List.flatMap_cons, addFiles_append]
        · rintro ⟨hqs, hnodup, hfresh, hdigests⟩
          obtain ⟨rest, hrest, heq⟩ := Option.bind_eq_some_iff.mp hqs
          cases heq
          rw [List.map_cons, List.nodup_cons] at hnodup
          rw [List.flatMap_cons, addFiles_append] at hdigests
          apply Option.bind_eq_some_iff.mpr
          refine ⟨(rest, t'), (ih _ _ _ rest).mpr ⟨hrest, hnodup.2, ?_, hdigests⟩, rfl⟩
          intro r hr hmem
          rcases List.mem_cons.mp hmem with hlr | hmem
          · exact hnodup.1 (hlr ▸ List.mem_map_of_mem hr)
          · exact hfresh r (List.mem_cons_of_mem _ hr) hmem

/-- The checks of `validate` on everything but the proxies. -/
def HeaderOK (c : Config) : Prop :=
  c.apiVersion = apiVersion ∧ ¬ c.runtime.maxInflightRequests ≤ 0 ∧ ¬ c.runtime.requestTimeout ≤ 0 ∧
    c.proxies ≠ []

theorem validate_iff (c c' : Config) (t : Digests) : validate lib host c base = .ok (c', t) ↔
    HeaderOK c ∧ ∃ qs, c.proxies.mapM (normalizeProxy lib host base) = some qs ∧
      (qs.map Proxy.listen).Nodup ∧ c' = { c with proxies := qs } ∧ t = c'.digests lib host := by
  unfold validate HeaderOK
  simp only [bind_eq_ok, reject_eq_ok, exists_const, pure_eq_ok, ne_eq, not_not]
  constructor
  · rintro ⟨hversion, hmax, htimeout, hsome, ⟨qs, t'⟩, hqs, heq⟩
    cases heq
    obtain ⟨hmap, hnodup, -, rfl⟩ := (validateProxies_eq lib host base 0 [] ∅ _ c.proxies qs).mp hqs
    exact ⟨⟨hversion, hmax, htimeout, hsome⟩, qs, hmap, hnodup, rfl, rfl⟩
  · rintro ⟨⟨hversion, hmax, htimeout, hsome⟩, qs, hmap, hnodup, rfl, rfl⟩
    refine ⟨hversion, hmax, htimeout, hsome, (qs, _), ?_, rfl⟩
    exact (validateProxies_eq lib host base 0 [] ∅ _ c.proxies qs).mpr
      ⟨hmap, hnodup, fun _ _ => List.not_mem_nil, rfl⟩

end Files

/-! `finish`. -/

theorem lookup_of_notMem {β : Type} (l : List (String × β)) (k : String) (h : k ∉ l.map (·.1)) :
    l.lookup k = none := by
  apply List.lookup_eq_none_iff.mpr
  intro e he
  have hne : k ≠ e.1 := fun heq => h (heq ▸ List.mem_map_of_mem he)
  simpa using hne

theorem uniqueRules_of_nodup (src : ProxySource) (j : ℕ) (seen : List (String × ℕ)) (rules : List Rule)
    (hnodup : (rules.map Rule.id).Nodup) (hfresh : ∀ id ∈ rules.map Rule.id, id ∉ seen.map (·.1)) :
    uniqueRules src j seen rules = .ok () := by
  induction rules generalizing j seen with
  | nil => rfl
  | cons r rules ih =>
    rw [List.map_cons, List.nodup_cons] at hnodup
    unfold uniqueRules
    rw [lookup_of_notMem seen r.id (hfresh r.id List.mem_cons_self)]
    apply ih _ _ hnodup.2
    intro id hid hmem
    rcases List.mem_cons.mp hmem with rfl | hmem
    · exact hnodup.1 hid
    · exact hfresh id (List.mem_cons_of_mem _ hid) hmem

def resolved (ps : List (Proxy × ProxySource)) : List Proxy := ps.map (fun q => resolveTLS q.2.file q.1)

theorem resolveProxies_iff (seen : List (String × ProxySource)) (ps : List (Proxy × ProxySource))
    (proxies : List Proxy) : resolveProxies seen ps = .ok proxies ↔
      (ps.map (fun q => q.1.id)).Nodup ∧ (∀ q ∈ ps, q.1.id ∉ seen.map (·.1)) ∧
        (∀ q ∈ ps, (q.1.ruleList.map Rule.id).Nodup) ∧ proxies = resolved ps := by
  induction ps generalizing seen proxies with
  | nil =>
    simp only [resolveProxies, Except.ok.injEq, resolved, List.map_nil]
    constructor
    · rintro rfl
      simp
    · rintro ⟨-, -, -, rfl⟩
      rfl
  | cons q ps ih =>
    obtain ⟨p, src⟩ := q
    unfold resolveProxies
    constructor
    · intro h
      split at h
      · cases h
      · next hnone =>
        simp only [bind_eq_ok, pure_eq_ok] at h
        obtain ⟨u, hrules, rest, hrest, rfl⟩ := h
        obtain ⟨hnodup, hfresh, hruleIDs, rfl⟩ := (ih _ _).mp hrest
        refine ⟨?_, ?_, ?_, rfl⟩
        · rw [List.map_cons, List.nodup_cons]
          refine ⟨fun hmem => ?_, hnodup⟩
          obtain ⟨r, hr, hid⟩ := List.mem_map.mp hmem
          exact hfresh r hr (by simp [hid])
        · refine List.forall_mem_cons.mpr ⟨lookup_eq_none seen p.id hnone, fun r hr hmem => ?_⟩
          exact hfresh r hr (List.mem_cons_of_mem _ hmem)
        · exact List.forall_mem_cons.mpr ⟨(uniqueRules_ok src 0 [] p.ruleList hrules).1, hruleIDs⟩
    · rintro ⟨hnodup, hfresh, hruleIDs, rfl⟩
      rw [List.map_cons, List.nodup_cons] at hnodup
      rw [lookup_of_notMem seen p.id (hfresh _ List.mem_cons_self)]
      simp only [bind_eq_ok, pure_eq_ok]
      have hrules := uniqueRules_of_nodup src 0 [] p.ruleList (hruleIDs _ List.mem_cons_self)
        (fun _ _ => List.not_mem_nil)
      refine ⟨(), hrules, resolved ps, (ih _ _).mpr ⟨hnodup.2, ?_, ?_, rfl⟩, rfl⟩
      · intro r hr hmem
        rcases List.mem_cons.mp hmem with hid | hmem
        · exact hnodup.1 (List.mem_map.mpr ⟨r, hr, hid⟩)
        · exact hfresh r (List.mem_cons_of_mem _ hr) hmem
      · exact fun r hr => hruleIDs r (List.mem_cons_of_mem _ hr)

/-- What `finish` returns, and when. -/
structure Finished (lib : Library) (host : Host) (c : Config) (sources : List ProxySource) (root : String)
    (d : Document) : Prop where
  proxyIDs : ((c.proxies.zip sources).map (fun q => q.1.id)).Nodup
  ruleIDs : ∀ q ∈ c.proxies.zip sources, (q.1.ruleList.map Rule.id).Nodup
  header : HeaderOK { c with proxies := resolved (c.proxies.zip sources) }
  proxies : (resolved (c.proxies.zip sources)).mapM (normalizeProxy lib host (dirString root)) =
    some d.config.proxies
  listeners : (d.config.proxies.map Proxy.listen).Nodup
  config : d.config = { c with proxies := d.config.proxies }
  document : newDocument lib d.config (d.config.digests lib host) = some d

theorem finish_iff (lib : Library) (host : Host) (c : Config) (sources : List ProxySource) (root : String)
    (d : Document) : finish lib host c sources root = .ok d ↔ Finished lib host c sources root d := by
  constructor
  · intro h
    unfold finish at h
    split at h
    · cases h
    · next proxies hresolve =>
      obtain ⟨hnodup, -, hruleIDs, rfl⟩ := (resolveProxies_iff [] _ proxies).mp hresolve
      split at h
      · cases h
      · next c' digests hvalidate =>
        obtain ⟨hheader, qs, hqs, hlisten, hc', hdigests⟩ :=
          (validate_iff lib host (dirString root) _ c' digests).mp hvalidate
        split at h
        · cases h
        · next d' hdoc =>
          cases h
          obtain ⟨hconfig, -⟩ := newDocument_some lib c' digests d hdoc
          have hproxies : d.config.proxies = qs := by rw [hconfig, hc']
          refine ⟨hnodup, hruleIDs, hheader, ?_, ?_, ?_, ?_⟩
          · rw [hproxies]
            exact hqs
          · rw [hproxies]
            exact hlisten
          · rw [hproxies, hconfig, hc']
          · rw [hconfig, ← hdigests]
            exact hdoc
  · intro h
    have hresolve := (resolveProxies_iff [] _ (resolved (c.proxies.zip sources))).mpr
      ⟨h.proxyIDs, fun _ _ => List.not_mem_nil, h.ruleIDs, rfl⟩
    have hvalidate := (validate_iff lib host (dirString root)
      { c with proxies := resolved (c.proxies.zip sources) } d.config (d.config.digests lib host)).mpr
      ⟨h.header, d.config.proxies, h.proxies, h.listeners, h.config, rfl⟩
    unfold finish
    rw [hresolve]
    simp only
    rw [hvalidate]
    simp only
    rw [h.document]

theorem mem_of_mapM {α β : Type} (f : α → Option β) (l : List α) (m : List β) (h : l.mapM f = some m)
    (b : β) (hb : b ∈ m) : ∃ a ∈ l, f a = some b := by
  induction l generalizing m with
  | nil =>
    have hnil : m = [] := by simpa using h.symm
    rw [hnil] at hb
    cases hb
  | cons a l ih =>
    simp only [List.mapM_cons, Option.bind_eq_bind, Option.bind_eq_some_iff, Option.pure_def,
      Option.some.injEq] at h
    obtain ⟨c, hc, m', hm', rfl⟩ := h
    rcases List.mem_cons.mp hb with rfl | hb
    · exact ⟨a, List.mem_cons_self, hc⟩
    · obtain ⟨a', ha', hfa⟩ := ih m' hm' hb
      exact ⟨a', List.mem_cons_of_mem _ ha', hfa⟩

theorem Finished.readable {lib : Library} {host : Host} {c : Config} {sources : List ProxySource}
    {root : String} {d : Document} (h : Finished lib host c sources root d) :
    ∀ f ∈ d.config.tlsFiles, (host.readFile f).isSome := by
  intro f hf
  obtain ⟨q, hq, hf⟩ := List.mem_flatMap.mp hf
  obtain ⟨p, -, hp⟩ := mem_of_mapM _ _ _ h.proxies q hq
  exact normalizeProxy_readable lib host _ p q hp f hf

end Faultline
