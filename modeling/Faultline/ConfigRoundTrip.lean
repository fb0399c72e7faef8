import Faultline.ConfigAddress
import Faultline.ConfigCodec
import Faultline.ConfigLayout

/-! A normalized configuration is normal: written out and parsed again, every proxy is accepted
as it is. Only the rules of a tcp proxy can change on the way, where a nil header map comes back
empty. -/
namespace Faultline

/-! Names of TLS files. -/

theorem tlsFileName_abs (base name : String) (h : isAbsString base = true) :
    isAbsString (tlsFileName base name) = true := by
  rw [isAbsString, tlsFileName, String.toList_ofList]
  apply isAbs_clean
  by_cases habs : isAbs name.toList = true
  · rw [if_pos habs]
    exact habs
  · rw [if_neg habs]
    exact isAbs_joinPath _ _ h

theorem tlsFileName_again (base base' name : String) (h : isAbsString base = true) :
    tlsFileName base' (tlsFileName base name) = tlsFileName base name := by
  have habs := tlsFileName_abs base name h
  have hclean : clean (tlsFileName base name).toList = (tlsFileName base name).toList := by
    rw [tlsFileName, String.toList_ofList]
    apply clean_clean
    by_cases hname : isAbs name.toList = true
    · rw [if_pos hname]
      exact hname
    · rw [if_neg hname]
      exact isAbs_joinPath _ _ h
  have hname : isAbs (tlsFileName base name).toList = true := habs
  rw [tlsFileName, if_pos hname, hclean, String.ofList_toList]

theorem optionalFile_again (base base' name : String) (h : isAbsString base = true) :
    optionalFile base' (optionalFile base name) = optionalFile base name := by
  unfold optionalFile
  by_cases hempty : name = ""
  · simp [hempty]
  · rw [if_neg hempty, if_neg (tlsFileName_ne base name), tlsFileName_again base base' name h]

theorem optionalFile_eq_empty (base name : String) : optionalFile base name = "" ↔ name = "" := by
  unfold optionalFile
  by_cases hempty : name = ""
  · simp [hempty]
  · simp [hempty, tlsFileName_ne]

theorem optionalFile_of_ne (base name : String) (h : name ≠ "") : optionalFile base name = tlsFileName base name :=
  if_neg h

theorem defaultUpstreamProtocol_again (protocol upstreamProtocol : String) :
    defaultUpstreamProtocol protocol (defaultUpstreamProtocol protocol upstreamProtocol) =
      defaultUpstreamProtocol protocol upstreamProtocol := by
  unfold defaultUpstreamProtocol
  by_cases hempty : upstreamProtocol = ""
  · simp [hempty]
  · simp [hempty]

theorem ListenerTLS.ok_iff (lib : Library) (host : Host) (base : String) (t : ListenerTLS) :
    t.ok lib host base = true ↔ t.certFile ≠ "" ∧ t.keyFile ≠ "" ∧
      keyPairOK lib host (tlsFileName base t.certFile) (tlsFileName base t.keyFile) = true ∧
      (t.clientCAFile = "" ∨ caOK lib host (tlsFileName base t.clientCAFile) = true) := by
  simp only [ListenerTLS.ok, Bool.and_eq_true, Bool.or_eq_true, decide_eq_true_eq, and_assoc]

theorem UpstreamTLS.ok_iff (lib : Library) (host : Host) (base : String) (t : UpstreamTLS) :
    t.ok lib host base = true ↔
      (t.caFile = "" ∨ caOK lib host (tlsFileName base t.caFile) = true) ∧
      (t.certFile = "" ∧ t.keyFile = "" ∧ t.caFile ≠ "" ∨ t.certFile ≠ "" ∧ t.keyFile ≠ "" ∧
        keyPairOK lib host (tlsFileName base t.certFile) (tlsFileName base t.keyFile) = true) := by
  unfold UpstreamTLS.ok
  by_cases hnone : t.certFile = "" ∧ t.keyFile = ""
  · simp [hnone]
  · rw [if_neg hnone]
    simp only [Bool.and_eq_true, Bool.or_eq_true, decide_eq_true_eq, and_assoc]
    constructor
    · rintro ⟨hca, hpair⟩
      exact ⟨hca, Or.inr hpair⟩
    · rintro ⟨hca, ⟨hcert, hkey, -⟩ | hpair⟩
      · exact absurd ⟨hcert, hkey⟩ hnone
      · exact ⟨hca, hpair⟩

section Again
variable (lib : Library) (host host' : Host) (base base' : String) (hbase : isAbsString base = true)
include hbase

theorem caOK_again (name : String) (hne : name ≠ "")
    (hread : host'.readFile (tlsFileName base name) = host.readFile (tlsFileName base name))
    (h : caOK lib host (tlsFileName base name) = true) :
    caOK lib host' (tlsFileName base' (optionalFile base name)) = true := by
  rw [optionalFile_of_ne base name hne, tlsFileName_again base base' name hbase]
  simpa only [caOK, hread] using h

theorem ListenerTLS.ok_again (t : ListenerTLS)
    (hfiles : ∀ f ∈ (t.absolute base).files, host'.readFile f = host.readFile f)
    (h : t.ok lib host base = true) :
    (t.absolute base).ok lib host' base' = true ∧ (t.absolute base).absolute base' = t.absolute base := by
  obtain ⟨-, -, hpair, hca⟩ := (ListenerTLS.ok_iff lib host base t).mp h
  have hmem (name : String) (hname : name ∈ [tlsFileName base t.certFile, tlsFileName base t.keyFile,
      optionalFile base t.clientCAFile]) (hne : name ≠ "") : host'.readFile name = host.readFile name :=
    hfiles name (List.mem_filter.mpr ⟨hname, by simpa using hne⟩)
  have hcert := hmem (tlsFileName base t.certFile) (by simp) (tlsFileName_ne base _)
  have hkey := hmem (tlsFileName base t.keyFile) (by simp) (tlsFileName_ne base _)
  constructor
  · refine (ListenerTLS.ok_iff lib host' base' _).mpr ⟨tlsFileName_ne base _, tlsFileName_ne base _, ?_, ?_⟩
    · simp only [ListenerTLS.absolute, tlsFileName_again base base' _ hbase]
      simpa only [keyPairOK, hcert, hkey] using hpair
    · by_cases hempty : t.clientCAFile = ""
      · exact Or.inl ((optionalFile_eq_empty base _).mpr hempty)
      · have hread := hmem (optionalFile base t.clientCAFile) (by simp)
          (fun h => hempty ((optionalFile_eq_empty base _).mp h))
        rw [optionalFile_of_ne base _ hempty] at hread
        exact Or.inr (caOK_again lib host host' base base' hbase _ hempty hread (hca.resolve_left hempty))
  · simp only [ListenerTLS.absolute, tlsFileName_again base base' _ hbase, optionalFile_again base base' _ hbase]

theorem UpstreamTLS.ok_again (t : UpstreamTLS)
    (hfiles : ∀ f ∈ (t.absolute base).files, host'.readFile f = host.readFile f)
    (h : t.ok lib host base = true) :
    (t.absolute base).ok lib host' base' = true ∧ (t.absolute base).absolute base' = t.absolute base := by
  obtain ⟨hca, hpair⟩ := (UpstreamTLS.ok_iff lib host base t).mp h
  -- a file that is named is read under its name, now as then
  have hread (name : String) (hname : optionalFile base name ∈ [optionalFile base t.caFile,
      optionalFile base t.certFile, optionalFile base t.keyFile]) (hne : name ≠ "") :
      host'.readFile (tlsFileName base name) = host.readFile (tlsFileName base name) := by
    rw [← optionalFile_of_ne base name hne]
    refine hfiles _ (List.mem_filter.mpr ⟨hname, ?_⟩)
    simpa [optionalFile_eq_empty] using hne
  constructor
  · refine (UpstreamTLS.ok_iff lib host' base' _).mpr ⟨?_, ?_⟩
    · by_cases hempty : t.caFile = ""
      · exact Or.inl ((optionalFile_eq_empty base _).mpr hempty)
      · exact Or.inr (caOK_again lib host host' base base' hbase _ hempty (hread t.caFile (by simp) hempty)
          (hca.resolve_left hempty))
    · simp only [UpstreamTLS.absolute, optionalFile_eq_empty, ne_eq]
      rcases hpair with hnone | ⟨hcert, hkey, hpair⟩
      · exact Or.inl hnone
      · refine Or.inr ⟨hcert, hkey, ?_⟩
        rw [optionalFile_of_ne base _ hcert, optionalFile_of_ne base _ hkey,
          tlsFileName_again base base' _ hbase, tlsFileName_again base base' _ hbase]
        simpa only [keyPairOK, hread t.certFile (by simp) hcert, hread t.keyFile (by simp) hkey] using hpair
  · simp only [UpstreamTLS.absolute, optionalFile_again base base' _ hbase]

theorem Proxy.tlsOK_again (p : Proxy)
    (hfiles : ∀ f ∈ (p.absolute base).tlsFiles, host'.readFile f = host.readFile f)
    (h : p.tlsOK lib host base) :
    (p.absolute base).tlsOK lib host' base' ∧ (p.absolute base).absolute base' = p.absolute base := by
  obtain ⟨hlegs, htls, hup⟩ := h
  have hlistener : (p.absolute base).tls.all (ListenerTLS.ok lib host' base') = true ∧
      (p.absolute base).tls.map (ListenerTLS.absolute base') = (p.absolute base).tls := by
    cases ht : p.tls with
    | none => simp [Proxy.absolute, ht]
    | some t =>
      rw [ht, Option.all_some] at htls
      have hagain := t.ok_again lib host host' base base' hbase (fun f hf =>
        hfiles f (List.mem_append_left _ (by simpa [Proxy.absolute, ht] using hf))) htls
      simpa [Proxy.absolute, ht] using hagain
  have hupstream : (p.absolute base).upstreamTLS.all
        (fun t => tlsUpstream (p.absolute base).upstream && t.ok lib host' base') = true ∧
      (p.absolute base).upstreamTLS.map (UpstreamTLS.absolute base') = (p.absolute base).upstreamTLS := by
    cases ht : p.upstreamTLS with
    | none => simp [Proxy.absolute, ht]
    | some t =>
      rw [ht, Option.all_some, Bool.and_eq_true] at hup
      have hagain := t.ok_again lib host host' base base' hbase (fun f hf =>
        hfiles f (List.mem_append_right _ (by simpa [Proxy.absolute, ht] using hf))) hup.2
      simpa [Proxy.absolute, ht, hup.1] using hagain
  have hlegs' : (p.absolute base).legsOK := by
    have hclient : (p.absolute base).tls.any (fun t => t.clientCAFile ≠ "") =
        p.tls.any (fun t => t.clientCAFile ≠ "") := by
      cases ht : p.tls with
      | none => simp [Proxy.absolute, ht]
      | some t => simp [Proxy.absolute, ht, ListenerTLS.absolute, optionalFile_eq_empty]
    have hserver : (p.absolute base).upstreamTLS.any (fun t => t.certFile ≠ "" || t.keyFile ≠ "") =
        p.upstreamTLS.any (fun t => t.certFile ≠ "" || t.keyFile ≠ "") := by
      cases ht : p.upstreamTLS with
      | none => simp [Proxy.absolute, ht]
      | some t => simp [Proxy.absolute, ht, UpstreamTLS.absolute, optionalFile_eq_empty]
    have hsome : (p.absolute base).tls.isSome = p.tls.isSome := by simp [Proxy.absolute]
    unfold Proxy.legsOK
    rw [hclient, hserver, hsome]
    exact hlegs
  refine ⟨⟨hlegs', hlistener.1, hupstream.1⟩, ?_⟩
  rw [Proxy.absolute, hlistener.2, hupstream.2]

theorem normalizeInfra_again (p q : Proxy) (h : normalizeInfra lib host base p = some q)
    (hfiles : ∀ f ∈ q.tlsFiles, host'.readFile f = host.readFile f) (rules : Option (List Rule)) :
    normalizeInfra lib host' base' { q with rules := rules } = some { q with rules := rules } := by
  unfold normalizeInfra at h
  simp only [Option.bind_eq_some_iff] at h
  obtain ⟨_, hprotocols, listen, hlisten, hq⟩ := h
  have hlisten := validateListen_idem "" "" _ _ ((toOption_eq_some _ _).mp hlisten)
  have hprotocols' : (validateProtocols "" p.id p.protocol
      (defaultUpstreamProtocol p.protocol p.upstreamProtocol)).toOption = some () := by
    rw [← hprotocols]
    simp only [validateProtocols, defaultUpstreamProtocol_again]
  unfold normalizeUpstream at hq
  simp only at hq
  by_cases htcp : p.protocol = "tcp"
  · rw [if_pos htcp, Option.bind_eq_some_iff] at hq
    obtain ⟨upstream, hupstream, hq⟩ := hq
    split_ifs at hq with htls
    cases hq
    have hupstream := validateTCPUpstream_idem "" "" _ _ _ ((toOption_eq_some _ _).mp hupstream)
    unfold normalizeInfra normalizeUpstream
    simp only [hprotocols', hlisten, toOption_ok, Option.bind_some, defaultUpstreamProtocol_again,
      if_pos htcp, hupstream, if_neg htls]
  · rw [if_neg htcp, Option.bind_eq_some_iff] at hq
    obtain ⟨upstream, hupstream, hq⟩ := hq
    split_ifs at hq with htls
    cases hq
    have hupstream := validateOrigin_idem "" "" _ _ _ ((toOption_eq_some _ _).mp hupstream)
    obtain ⟨hok, hsame⟩ := Proxy.tlsOK_again lib host host' base base' hbase _ hfiles htls
    unfold normalizeInfra normalizeUpstream
    simp only [Proxy.absolute, hprotocols', hlisten, toOption_ok, Option.bind_some,
      defaultUpstreamProtocol_again, if_neg htcp, hupstream]
    have htls := congrArg Proxy.tls hsame
    have hup := congrArg Proxy.upstreamTLS hsame
    simp only [Proxy.absolute] at htls hup
    refine (if_pos hok).trans ?_
    rw [htls, hup]

end Again

/-! Rules. -/

theorem Selector.Reread.validate {s t : Selector} (h : s.Reread t) (path : String) :
    validateSelector t path = validateSelector s path := by
  obtain ⟨hprobability, hnth, hevery⟩ := h
  obtain ⟨x, nth, every⟩ := s
  obtain ⟨z, nth', every'⟩ := t
  simp only at hprobability hnth hevery
  subst hnth hevery
  cases hprobability with
  | none => rfl
  | @some x z hfloat =>
    by_cases hzero : x.eq Float64.zero = true
    · have hz := hfloat.zero hzero
      simp only [validateSelector, Option.map_some, hzero, hz, if_true, Option.isSome_some]
    · by_cases hnan : x.isNaN = true
      · -- neither is a zero, and both are rejected
        have hz := hfloat.nan hnan
        have hznot : z.eq Float64.zero = false := by simp [Float64.eq, hz]
        simp [validateSelector, hzero, hznot, hnan, hz]
        rfl
      · rw [hfloat.same (by simpa using hnan) (fun h => absurd h hzero)]

theorem Rule.Reread.validate {r t : Rule} (h : r.Reread t) (protocol path : String) :
    validateProxyRule protocol t path = validateProxyRule protocol r.fill path := by
  obtain ⟨ht, hselect⟩ := h
  have hselector := hselect.validate path
  rw [ht]
  have hrule (f : Fault) : validateRule { r.fill with select := t.select, fault := f } path =
      validateRule { r.fill with fault := f } path := by
    simp only [validateRule, hselector]
    rfl
  have htcp : validateTCPRule { r.fill with select := t.select } path = validateTCPRule r.fill path := by
    simp only [validateTCPRule, hselector]
    rfl
  have hcommit : validateCommitRule { r.fill with select := t.select } path =
      validateCommitRule r.fill path := by
    simp only [validateCommitRule, hrule]
  have hplain : validateRule { r.fill with select := t.select } path = validateRule r.fill path :=
    hrule r.fill.fault
  simp only [validateProxyRule, htcp, hcommit, hplain]

theorem normalizeRules_reread (protocol : String) (rules rules' : List Rule)
    (h : List.Forall₂ Rule.Reread rules rules') :
    normalizeRules protocol rules' = normalizeRules protocol (rules.map Rule.fill) := by
  induction h with
  | nil => rfl
  | cons hr _ ih =>
    unfold normalizeRules at ih ⊢
    rw [List.map_cons, List.mapM_cons, List.mapM_cons, hr.validate, ih]

theorem normalizeRules_again (protocol : String) (rules rules' : List Rule)
    (h : normalizeRules protocol rules = some rules') :
    normalizeRules protocol (rules'.map Rule.fill) = some (rules'.map Rule.fill) ∧
      (∀ r ∈ rules', SelectorValid r.select) ∧ rules'.map Rule.id = rules.map Rule.id ∧
      (protocol ≠ "tcp" → ∀ r ∈ rules', r.fill = r) := by
  have hrules : validateRules protocol "" 0 rules = .ok rules' := by
    rw [← toOption_eq_some, validateRules_eq]
    exact h
  obtain ⟨hagain, hvalid, hids, hfill⟩ := validateRules_idem protocol "" "" 0 0 rules rules' hrules
  refine ⟨?_, fun r hr => (hvalid r hr).1, hids, hfill⟩
  rw [← validateRules_eq protocol "" 0, hagain]
  rfl

theorem Rule.Reread.eq_fill {r t : Rule} (h : r.Reread t) (hr : SelectorValid r.select) : t = r.fill := by
  obtain ⟨ht, hselect⟩ := h
  rw [hselect.eq hr] at ht
  exact ht

theorem reread_eq_fill (rules rules' : List Rule) (h : List.Forall₂ Rule.Reread rules rules')
    (hvalid : ∀ r ∈ rules, SelectorValid r.select) : rules' = rules.map Rule.fill := by
  induction h with
  | nil => rfl
  | cons hr _ ih =>
    rw [List.map_cons, hr.eq_fill (hvalid _ List.mem_cons_self),
      ih (fun r hr => hvalid r (List.mem_cons_of_mem _ hr))]

/-! Proxies and documents. -/

def Proxy.fill (p : Proxy) : Proxy := { p with rules := some (p.ruleList.map Rule.fill) }

def Config.fill (c : Config) : Config := { c with proxies := c.proxies.map Proxy.fill }

theorem normalizeProxy_split (lib : Library) (host : Host) (base : String) (p q : Proxy)
    (h : normalizeProxy lib host base p = some q) : ∃ infra rules,
      normalizeInfra lib host base p = some infra ∧ normalizeRules p.protocol p.ruleList = some rules ∧
        q = { infra with rules := some rules } ∧ infra.protocol = p.protocol ∧ infra.rules = p.rules := by
  unfold normalizeProxy at h
  simp only [Option.bind_eq_some_iff, Option.map_eq_some_iff] at h
  obtain ⟨infra, hinfra, rules, hrules, rfl⟩ := h
  refine ⟨infra, rules, hinfra, hrules, rfl, ?_⟩
  unfold normalizeInfra at hinfra
  simp only [Option.bind_eq_some_iff] at hinfra
  obtain ⟨_, -, listen, -, hup⟩ := hinfra
  obtain ⟨upstream, tls, upstreamTLS, rfl⟩ := normalizeUpstream_keeps lib host base _ infra hup
  exact ⟨rfl, rfl⟩

structure NormalProxy (lib : Library) (host : Host) (q : Proxy) : Prop where
  rooted : q.Rooted
  infra : ∀ host' base' rules, (∀ f ∈ q.tlsFiles, host'.readFile f = host.readFile f) →
    normalizeInfra lib host' base' { q with rules := rules } = some { q with rules := rules }
  rules : normalizeRules q.protocol (q.ruleList.map Rule.fill) = some (q.ruleList.map Rule.fill)
  valid : ∀ r ∈ q.ruleList, SelectorValid r.select
  given : q.rules = some q.ruleList
  filled : q.protocol ≠ "tcp" → ∀ r ∈ q.ruleList, r.fill = r

theorem optionalFile_rooted_of (base name : String) (hbase : isAbsString base = true) :
    RootedName (optionalFile base name) := by
  unfold optionalFile
  by_cases hempty : name = ""
  · exact Or.inl (if_pos hempty)
  · rw [if_neg hempty]
    exact Or.inr (tlsFileName_abs base name hbase)

theorem Proxy.absolute_isRooted (base : String) (hbase : isAbsString base = true) (p : Proxy) :
    (p.absolute base).Rooted := by
  constructor
  · intro t ht
    obtain ⟨s, -, rfl⟩ := Option.map_eq_some_iff.mp ht
    exact ⟨Or.inr (tlsFileName_abs base _ hbase), Or.inr (tlsFileName_abs base _ hbase),
      optionalFile_rooted_of base _ hbase⟩
  · intro t ht
    obtain ⟨s, -, rfl⟩ := Option.map_eq_some_iff.mp ht
    exact ⟨optionalFile_rooted_of base _ hbase, optionalFile_rooted_of base _ hbase,
      optionalFile_rooted_of base _ hbase⟩

theorem normalizeInfra_isRooted (lib : Library) (host : Host) (base : String)
    (hbase : isAbsString base = true) (p q : Proxy) (h : normalizeInfra lib host base p = some q) :
    q.Rooted := by
  unfold normalizeInfra normalizeUpstream at h
  simp only [Option.bind_eq_some_iff] at h
  obtain ⟨_, -, listen, -, h⟩ := h
  by_cases htcp : p.protocol = "tcp"
  · rw [if_pos htcp, Option.bind_eq_some_iff] at h
    obtain ⟨upstream, -, h⟩ := h
    split_ifs at h with htls
    cases h
    have hnone : p.tls = none ∧ p.upstreamTLS = none := by simpa using htls
    constructor
    · intro t ht
      cases hnone.1.symm.trans ht
    · intro t ht
      cases hnone.2.symm.trans ht
  · rw [if_neg htcp, Option.bind_eq_some_iff] at h
    obtain ⟨upstream, -, h⟩ := h
    split_ifs at h
    cases h
    exact Proxy.absolute_isRooted base hbase _

theorem normalizeProxy_normal (lib : Library) (host : Host) (base : String) (hbase : isAbsString base = true)
    (p q : Proxy) (h : normalizeProxy lib host base p = some q) : NormalProxy lib host q := by
  obtain ⟨infra, rules, hinfra, hrules, rfl, hprotocol, -⟩ := normalizeProxy_split lib host base p q h
  obtain ⟨hagain, hvalid, -, hfill⟩ := normalizeRules_again p.protocol p.ruleList rules hrules
  rw [← hprotocol] at hagain hfill
  refine ⟨normalizeInfra_isRooted lib host base hbase p infra hinfra, ?_, hagain, hvalid, rfl, hfill⟩
  intro host' base' rules' hfiles
  exact normalizeInfra_again lib host host' base base' hbase p infra hinfra hfiles rules'

structure NormalDocument (lib : Library) (host : Host) (d : Document) : Prop where
  valid : d.valid = true ∧ ConfigValid d.config
  header : HeaderOK d.config
  proxies : ∀ q ∈ d.config.proxies, NormalProxy lib host q
  listeners : (d.config.proxies.map Proxy.listen).Nodup
  document : newDocument lib d.config (d.config.digests lib host) = some d

theorem isAbs_dirString (root : String) (h : isAbsString root = true) : isAbsString (dirString root) = true := by
  rw [isAbsString, dirString, String.toList_ofList]
  exact isAbs_dirPath root.toList h

theorem Accepted.finishedAt {lib : Library} {y : Yaml} {host : Host} {d : Document}
    (h : Accepted lib y host d) : ∃ c sources root, isAbsString root = true ∧
      finish lib host c sources root = .ok d := by
  rcases h with ⟨data, filename, h⟩ | ⟨filename, h⟩
  · unfold parse at h
    split_ifs at h
    split at h
    · cases h
    · next absolute habs =>
      rw [bind_eq_ok] at h
      obtain ⟨c, -, h⟩ := h
      exact ⟨c, _, absolute, host.abs_rooted filename absolute habs, h⟩
  · unfold load at h
    split_ifs at h
    split at h
    · cases h
    next root habs =>
    split at h
    · cases h
    split_ifs at h
    · cases h
    split at h
    · cases h
    · simp only [bind_eq_ok] at h
      obtain ⟨raw, -, acc, -, h⟩ := h
      exact ⟨_, _, root, host.abs_rooted filename root habs, h⟩

theorem Accepted.normal {lib : Library} {y : Yaml} {host : Host} {d : Document}
    (h : Accepted lib y host d) : NormalDocument lib host d := by
  obtain ⟨c, sources, root, hroot, hfinish⟩ := h.finishedAt
  have hnormal := (finish_iff_normalized lib host c sources root d).mp hfinish
  refine ⟨finish_valid lib host c sources root d hfinish, ?_, ?_, hnormal.listeners, hnormal.document⟩
  · obtain ⟨hversion, hmax, htimeout, hne⟩ := hnormal.header
    rw [hnormal.config]
    refine ⟨hversion, hmax, htimeout, ?_⟩
    intro hnil
    have hids := mapM_map _ Proxy.id Proxy.id (fun p q hq => normalizeProxy_id lib host _ p q hq) _ _
      hnormal.proxies
    simp only at hnil
    rw [hnil, List.map_nil] at hids
    exact hne (List.map_eq_nil_iff.mp hids.symm)
  · intro q hq
    obtain ⟨p, -, hp⟩ := mem_of_mapM _ _ _ hnormal.proxies q hq
    exact normalizeProxy_normal lib host _ (isAbs_dirString root hroot) p q hp

/-! Reading a document back. -/

theorem addFiles_congr (lib : Library) (host host' : Host) (t : Digests) (files : List String)
    (h : ∀ f ∈ files, host'.readFile f = host.readFile f) :
    addFiles lib host' t files = addFiles lib host t files := by
  induction files generalizing t with
  | nil => rfl
  | cons f files ih =>
    unfold addFiles at ih ⊢
    rw [List.foldl_cons, List.foldl_cons, h f List.mem_cons_self]
    exact ih _ (fun g hg => h g (List.mem_cons_of_mem f hg))

theorem Config.fill_files (c : Config) : c.fill.tlsFiles = c.tlsFiles := by
  simp only [Config.tlsFiles, Config.fill, List.flatMap_map]
  rfl

theorem mapM_eq_self {α : Type} (f : α → Option α) (l : List α) (h : ∀ a ∈ l, f a = some a) :
    l.mapM f = some l := by
  induction l with
  | nil => rfl
  | cons a l ih =>
    rw [List.mapM_cons, h a List.mem_cons_self, ih (fun b hb => h b (List.mem_cons_of_mem a hb))]
    rfl

theorem forall₂_eq_map {α β : Type} {R : α → β → Prop} (f : α → β) (l : List α) (m : List β)
    (h : List.Forall₂ R l m) (hf : ∀ a ∈ l, ∀ b, R a b → b = f a) : m = l.map f := by
  induction h with
  | nil => rfl
  | @cons a b l m hab _ ih =>
    rw [List.map_cons, hf a List.mem_cons_self b hab, ih (fun a ha => hf a (List.mem_cons_of_mem _ ha))]

theorem parse_name (lib : Library) (y : Yaml) (host : Host) (data : Bytes) (filename : String) (d : Document)
    (h : parse lib y host data filename = .ok d) :
    filename ≠ "" ∧ ∃ absolute, host.abs filename = some absolute := by
  unfold parse at h
  split_ifs at h with hname
  refine ⟨hname, ?_⟩
  split at h
  · cases h
  · next absolute habs => exact ⟨absolute, habs⟩

section Reread
variable {lib : Library} {y : Yaml} {host host' : Host} {d : Document}

theorem NormalDocument.decoded (hy : y.Faithful) (hd : NormalDocument lib host d) :
    decodeDocument y (decodeConfig y) (encode y d.config) Config.zero = .ok d.config.fill := by
  obtain ⟨c, ⟨hconfig, hproxies⟩, hdecode⟩ := decode_encode hy d.config
  have hfill : c.proxies = d.config.proxies.map Proxy.fill := by
    apply forall₂_eq_map Proxy.fill _ _ hproxies
    rintro p hp q ⟨rules, rfl, hrules⟩
    rw [reread_eq_fill p.ruleList rules hrules (hd.proxies p hp).valid]
    rfl
  rw [hdecode, hconfig, hfill]
  rfl

theorem NormalDocument.fill_rooted (hd : NormalDocument lib host d) : ∀ p ∈ d.config.fill.proxies, p.Rooted := by
  intro p hp
  obtain ⟨q, hq, rfl⟩ := List.mem_map.mp hp
  exact (hd.proxies q hq).rooted

/-- Parsing the text of an accepted document takes the fingerprint of the configuration with its
header maps filled in. -/
theorem NormalDocument.reparse (hy : y.Faithful) (hd : NormalDocument lib host d)
    (hfiles : ∀ f ∈ d.config.tlsFiles, host'.readFile f = host.readFile f) (filename : String)
    (hname : filename ≠ "") (habs : (host'.abs filename).isSome) (e : Document) :
    parse lib y host' (encode y d.config) filename = .ok e ↔
      newDocument lib d.config.fill (d.config.digests lib host) = some e := by
  obtain ⟨absolute, habs⟩ := Option.isSome_iff_exists.mp habs
  have hnormal : d.config.fill.proxies.mapM (normalizeProxy lib host' (dirString absolute)) =
      some d.config.fill.proxies := by
    apply mapM_eq_self
    intro p hp
    obtain ⟨q, hq, rfl⟩ := List.mem_map.mp hp
    have hsame : ∀ f ∈ q.tlsFiles, host'.readFile f = host.readFile f := fun f hf =>
      hfiles f (List.mem_flatMap.mpr ⟨q, hq, hf⟩)
    have hinfra := (hd.proxies q hq).infra host' (dirString absolute) (some (q.ruleList.map Rule.fill)) hsame
    have hrules : normalizeRules q.fill.protocol q.fill.ruleList = some (q.ruleList.map Rule.fill) :=
      (hd.proxies q hq).rules
    rw [normalizeProxy, hrules]
    show (normalizeInfra lib host' (dirString absolute) { q with rules := some (q.ruleList.map Rule.fill) }).bind
      _ = _
    rw [hinfra]
    rfl
  have hdigests : d.config.fill.digests lib host' = d.config.digests lib host := by
    rw [Config.digests, Config.digests, Config.fill_files]
    exact addFiles_congr lib host host' ∅ _ hfiles
  rw [parse_rooted lib y host' _ filename absolute d.config.fill e hname habs (hd.decoded hy) hd.fill_rooted]
  constructor
  · intro h
    have hconfig : e.config = d.config.fill := by
      have hproxies := Option.some.inj (h.proxies.symm.trans hnormal)
      rw [h.config, hproxies]
    have hdoc := h.document
    rwa [hconfig, hdigests] at hdoc
  · intro h
    have hconfig := (newDocument_some lib _ _ e h).1
    obtain ⟨hversion, hmax, htimeout, hne⟩ := hd.header
    refine ⟨?_, ?_, ⟨hversion, hmax, htimeout, ?_⟩, ?_, ?_, ?_, ?_⟩
    · simpa [Config.fill, Proxy.fill, Function.comp_def] using hd.valid.2.proxyIDs
    · intro p hp
      obtain ⟨q, hq, rfl⟩ := List.mem_map.mp hp
      simpa [Proxy.fill, Proxy.ruleList, Rule.fill, Function.comp_def] using hd.valid.2.ruleIDs q hq
    · simpa [Config.fill] using hne
    · rw [hconfig]
      exact hnormal
    · rw [hconfig]
      simpa [Config.fill, Proxy.fill, Function.comp_def] using hd.listeners
    · rw [hconfig]
    · rw [hconfig, hdigests]
      exact h

def HeadersGiven (c : Config) : Prop :=
  ∀ p ∈ c.proxies, p.protocol = "tcp" → ∀ r ∈ p.ruleList, r.matcher.headers ≠ none

theorem Rule.fill_eq_iff (r : Rule) : r.fill = r ↔ r.matcher.headers ≠ none := by
  obtain ⟨id, enabled, ⟨pathPattern, method, service, path, headers⟩, select, fault⟩ := r
  cases headers <;> simp [Rule.fill]

theorem Proxy.fill_eq_iff (p : Proxy) (h : p.rules = some p.ruleList) :
    p.fill = p ↔ ∀ r ∈ p.ruleList, r.fill = r := by
  constructor
  · intro hfill r hr
    have hrules : some (p.ruleList.map Rule.fill) = some p.ruleList := by
      rw [← h]
      exact congrArg Proxy.rules hfill
    have hmap : p.ruleList.map Rule.fill = p.ruleList.map (fun r => r) := by
      rw [List.map_id']
      exact Option.some.inj hrules
    exact List.map_inj_left.mp hmap r hr
  · intro hrules
    have hmap : p.ruleList.map Rule.fill = p.ruleList := by
      rw [List.map_congr_left hrules, List.map_id']
    rw [Proxy.fill, hmap, ← h]

theorem NormalDocument.fill_eq_iff (hd : NormalDocument lib host d) :
    d.config.fill = d.config ↔ HeadersGiven d.config := by
  have hproxy (p : Proxy) (hp : p ∈ d.config.proxies) : p.fill = p ↔
      (p.protocol = "tcp" → ∀ r ∈ p.ruleList, r.matcher.headers ≠ none) := by
    rw [Proxy.fill_eq_iff p (hd.proxies p hp).given]
    by_cases htcp : p.protocol = "tcp"
    · simp only [htcp, true_implies, Rule.fill_eq_iff]
    · simp only [htcp, false_implies, iff_true]
      exact (hd.proxies p hp).filled htcp
  constructor
  · intro hfill p hp
    have hmap : d.config.proxies.map Proxy.fill = d.config.proxies.map (fun p => p) := by
      rw [List.map_id']
      exact congrArg Config.proxies hfill
    exact (hproxy p hp).mp (List.map_inj_left.mp hmap p hp)
  · intro hgiven
    have hmap : d.config.proxies.map Proxy.fill = d.config.proxies := by
      rw [List.map_congr_left (fun p hp => (hproxy p hp).mpr (hgiven p hp)), List.map_id']
    rw [Config.fill, hmap]

end Reread

/-- The text of a document parses into an equal document with the same configuration, under every
name that can be resolved. -/
def RoundTrips (lib : Library) (y : Yaml) (host : Host) (d : Document) : Prop :=
  ∀ filename, filename ≠ "" → (host.abs filename).isSome → ∃ e,
    parse lib y host (encode y d.config) filename = .ok e ∧ documentEqual (some d) (some e) = true ∧
      e.config = d.config

/-! A tcp rule without a matcher. -/

def tcpRule (headers : Option (OrdMap String String)) : Rule :=
  { Rule.zero with
    id := "slow"
    enabled := true
    matcher := { Matcher.zero with headers := headers }
    select := ⟨none, some 1, none⟩
    fault := { Fault.zero with
      phase := "on_connect"
      action := "delay_connect"
      duration := some 1000000 } }

def tcpConfig (headers : Option (OrdMap String String)) : Config :=
  { sampleConfig [] with
    proxies := [{ Proxy.zero with
      id := "cache"
      protocol := "tcp"
      upstreamProtocol := "tcp"
      listen := "127.0.0.1:8080"
      upstream := "tcp://127.0.0.1:9000"
      rules := some [tcpRule headers] }] }

def tcpText : Bytes := bytesOf
  ("api_version: faultline/v1alpha1\nseed: 42\nproxies:\n    - id: cache\n      protocol: tcp\n" ++
    "      listen: 127.0.0.1:8080\n      upstream: tcp://127.0.0.1:9000\n      rules:\n" ++
    "        - id: slow\n          select:\n            nth: 1\n          fault:\n" ++
    "            phase: on_connect\n            action: delay_connect\n            duration: 1ms\n")

def tcpNode : Node := encodeStruct
  [("api_version", .str "faultline/v1alpha1"), ("seed", .scalar "!!int" "42"),
    ("proxies", .sequence "!!seq" [encodeStruct
      [("id", .str "cache"), ("protocol", .str "tcp"), ("listen", .str "127.0.0.1:8080"),
        ("upstream", .str "tcp://127.0.0.1:9000"),
        ("rules", .sequence "!!seq" [encodeStruct
          [("id", .str "slow"), ("select", encodeStruct [("nth", .scalar "!!int" "1")]),
            ("fault", encodeStruct [("phase", .str "on_connect"), ("action", .str "delay_connect"),
              ("duration", .str "1ms")])]])]])]

def tcpPrinted : Bytes := bytesOf
  ("api_version: faultline/v1alpha1\nseed: 42\nruntime:\n    max_inflight_requests: 1000\n" ++
    "    request_timeout: 30s\nproxies:\n    - id: cache\n      protocol: tcp\n" ++
    "      upstream_protocol: tcp\n      listen: 127.0.0.1:8080\n" ++
    "      upstream: tcp://127.0.0.1:9000\n      rules:\n        - id: slow\n" ++
    "          enabled: true\n          match:\n            path_pattern: \"\"\n" ++
    "            method: \"\"\n            service: \"\"\n            path: \"\"\n" ++
    "            headers: \x7b\x7d\n          select:\n            nth: 1\n          fault:\n" ++
    "            phase: on_connect\n            action: delay_connect\n            duration: 1ms\n" ++
    "            direction: \"\"\n            trigger_direction: \"\"\n")

def tcpYaml : Yaml :=
  (standardYaml tcpPrinted (prune (encodeConfig (standardYaml [] .alias) (tcpConfig (some ∅))))).withText
    tcpText tcpNode

theorem tcpYaml_faithful : tcpYaml.Faithful :=
  withText_faithful _ _ _ _ (by decide +kernel) (by decide +kernel) (by decide +kernel)

theorem tcp_parsed : ∃ d, parse standardLibrary tcpYaml sampleHost tcpText "/etc/faultline.yaml" = .ok d ∧
    d.config = tcpConfig none := by
  have h : (parse standardLibrary tcpYaml sampleHost tcpText "/etc/faultline.yaml").toOption.map
      (·.config) = some (tcpConfig none) := by
    decide +kernel
  obtain ⟨d, hd, hconfig⟩ := Option.map_eq_some_iff.mp h
  exact ⟨d, (toOption_eq_some _ d).mp hd, hconfig⟩

theorem tcp_printed : encode tcpYaml (tcpConfig none) = tcpPrinted := by decide +kernel

theorem tcp_reparsed : ∃ e, parse standardLibrary tcpYaml sampleHost tcpPrinted
    "/etc/faultline.yaml" = .ok e ∧ e.config = tcpConfig (some ∅) := by
  have h : (parse standardLibrary tcpYaml sampleHost tcpPrinted "/etc/faultline.yaml").toOption.map
      (·.config) = some (tcpConfig (some ∅)) := by
    decide +kernel
  obtain ⟨e, he, hconfig⟩ := Option.map_eq_some_iff.mp h
  exact ⟨e, (toOption_eq_some _ e).mp he, hconfig⟩

theorem tcp_serialized : (documentJson (canonical (tcpConfig none)) ∅).text ≠
    (documentJson (canonical (tcpConfig (some ∅))) ∅).text := by
  decide +kernel

theorem round_trip_tcp : ∃ d, parse standardLibrary tcpYaml sampleHost tcpText "/etc/faultline.yaml" = .ok d ∧
    d.config = tcpConfig none ∧ tcpYaml.Faithful ∧ encode tcpYaml d.config = tcpPrinted ∧
    (∃ e, parse standardLibrary tcpYaml sampleHost (encode tcpYaml d.config) "/etc/faultline.yaml" = .ok e ∧
      (documentJson (canonical d.config) ∅).text ≠ (documentJson (canonical e.config) ∅).text) ∧
    ¬ RoundTrips standardLibrary tcpYaml sampleHost d := by
  obtain ⟨d, hd, hconfig⟩ := tcp_parsed
  obtain ⟨e, he, hfilled⟩ := tcp_reparsed
  have hprinted : encode tcpYaml d.config = tcpPrinted := by rw [hconfig, tcp_printed]
  refine ⟨d, hd, hconfig, tcpYaml_faithful, hprinted, ⟨e, ?_, ?_⟩, ?_⟩
  · rw [hprinted]
    exact he
  · rw [hconfig, hfilled]
    exact tcp_serialized
  · intro h
    obtain ⟨e', he', -, hsame⟩ := h "/etc/faultline.yaml" (by decide) (by decide +kernel)
    rw [hprinted] at he'
    cases he.symm.trans he'
    exact absurd (hfilled.symm.trans (hsame.trans hconfig)) (by decide)

/-- A document is read back unless a rule of a tcp proxy was decoded without a header map. -/
theorem round_trip (lib : Library) (y : Yaml) (hy : y.Faithful) (host host' : Host) (d : Document)
    (hd : Accepted lib y host d) (hfiles : ∀ f ∈ d.config.tlsFiles, host'.readFile f = host.readFile f) :
    RoundTrips lib y host' d ↔ HeadersGiven d.config := by
  have hnormal := hd.normal
  rw [← hnormal.fill_eq_iff]
  constructor
  · intro h
    -- an absolute name can always be resolved
    have habs : (host'.abs "/active.yaml").isSome := by
      simp [Host.abs, absPath, isAbs]
    obtain ⟨e, he, -, hconfig⟩ := h "/active.yaml" (by decide) habs
    have hdoc := (hnormal.reparse hy hfiles _ (by decide) habs e).mp he
    rw [← (newDocument_some lib _ _ e hdoc).1, hconfig]
  · intro hfill filename hname habs
    refine ⟨d, ?_, ?_, rfl⟩
    · apply (hnormal.reparse hy hfiles filename hname habs d).mpr
      rw [hfill]
      exact hnormal.document
    · simp [documentEqual, documentValid, hnormal.valid.1]

theorem round_trip_http : ∃ d, parse standardLibrary sampleYaml sampleHost sampleText
      "/etc/faultline.yaml" = .ok d ∧ d.config = sampleConfig sampleRules ∧
    (RoundTrips standardLibrary sampleYaml sampleHost d ↔ HeadersGiven d.config) ∧
    HeadersGiven d.config := by
  obtain ⟨d, hd, hconfig⟩ := sample_accepted
  have hfaithful : sampleYaml.Faithful := standardYaml_faithful _ _ (by decide +kernel)
  refine ⟨d, hd, hconfig, round_trip standardLibrary sampleYaml hfaithful sampleHost sampleHost d
    (Or.inl ⟨_, _, hd⟩) (fun _ _ => rfl), ?_⟩
  rw [hconfig]
  intro p hp htcp
  cases List.mem_singleton.mp hp
  exact absurd htcp (by decide)

end Faultline
