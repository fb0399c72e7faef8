import Faultline.DocumentCompare

/-! The layout of a configuration over files. `finish` sees a list of proxies with resolved TLS
paths; which of them came from which file, and in which order, makes no difference to what is
accepted nor to the fingerprint. -/
namespace Faultline

/-! Names that do not depend on the base directory. -/

def RootedName (name : String) : Prop := name = "" ∨ isAbsString name = true

def ListenerTLS.Rooted (t : ListenerTLS) : Prop :=
  RootedName t.certFile ∧ RootedName t.keyFile ∧ RootedName t.clientCAFile

def UpstreamTLS.Rooted (t : UpstreamTLS) : Prop :=
  RootedName t.caFile ∧ RootedName t.certFile ∧ RootedName t.keyFile

def Proxy.Rooted (p : Proxy) : Prop :=
  (∀ t, p.tls = some t → t.Rooted) ∧ ∀ t, p.upstreamTLS = some t → t.Rooted

theorem tlsFileName_rooted (base base' name : String) (h : RootedName name) (hne : name ≠ "") :
    tlsFileName base name = tlsFileName base' name := by
  have habs : isAbs name.toList = true := h.resolve_left hne
  rw [tlsFileName, tlsFileName, if_pos habs, if_pos habs]

theorem optionalFile_rooted (base base' name : String) (h : RootedName name) :
    optionalFile base name = optionalFile base' name := by
  unfold optionalFile
  by_cases hne : name = ""
  · rw [if_pos hne, if_pos hne]
  · rw [if_neg hne, if_neg hne, tlsFileName_rooted base base' name h hne]

section Base
variable (lib : Library) (host : Host) (base base' : String)

theorem ListenerTLS.ok_rooted (t : ListenerTLS) (h : t.Rooted) :
    t.ok lib host base = t.ok lib host base' := by
  obtain ⟨hcert, hkey, hca⟩ := h
  unfold ListenerTLS.ok
  by_cases hc : t.certFile = ""
  · simp [hc]
  by_cases hk : t.keyFile = ""
  · simp [hk]
  rw [tlsFileName_rooted base base' _ hcert hc, tlsFileName_rooted base base' _ hkey hk]
  by_cases ha : t.clientCAFile = ""
  · simp [ha]
  · rw [tlsFileName_rooted base base' _ hca ha]

theorem ListenerTLS.absolute_rooted (t : ListenerTLS) (h : t.Rooted) (hok : t.ok lib host base = true) :
    t.absolute base = t.absolute base' := by
  simp only [ListenerTLS.ok, Bool.and_eq_true, decide_eq_true_eq] at hok
  obtain ⟨hcert, hkey, hca⟩ := h
  rw [ListenerTLS.absolute, ListenerTLS.absolute, tlsFileName_rooted base base' _ hcert hok.1.1.1,
    tlsFileName_rooted base base' _ hkey hok.1.1.2, optionalFile_rooted base base' _ hca]

theorem UpstreamTLS.ok_rooted (t : UpstreamTLS) (h : t.Rooted) :
    t.ok lib host base = t.ok lib host base' := by
  obtain ⟨hca, hcert, hkey⟩ := h
  -- the two halves of the test do not share a name
  have hfirst : (t.caFile = "" || caOK lib host (tlsFileName base t.caFile)) =
      (t.caFile = "" || caOK lib host (tlsFileName base' t.caFile) : Bool) := by
    by_cases ha : t.caFile = ""
    · simp [ha]
    · rw [tlsFileName_rooted base base' _ hca ha]
  have hsecond : (t.certFile ≠ "" && t.keyFile ≠ "" &&
      keyPairOK lib host (tlsFileName base t.certFile) (tlsFileName base t.keyFile)) =
        (t.certFile ≠ "" && t.keyFile ≠ "" &&
          keyPairOK lib host (tlsFileName base' t.certFile) (tlsFileName base' t.keyFile) : Bool) := by
    by_cases hc : t.certFile = ""
    · simp [hc]
    by_cases hk : t.keyFile = ""
    · simp [hk]
    rw [tlsFileName_rooted base base' _ hcert hc, tlsFileName_rooted base base' _ hkey hk]
  rw [UpstreamTLS.ok, UpstreamTLS.ok, hfirst, hsecond]

theorem UpstreamTLS.absolute_rooted (t : UpstreamTLS) (h : t.Rooted) :
    t.absolute base = t.absolute base' := by
  obtain ⟨hca, hcert, hkey⟩ := h
  rw [UpstreamTLS.absolute, UpstreamTLS.absolute, optionalFile_rooted base base' _ hca,
    optionalFile_rooted base base' _ hcert, optionalFile_rooted base base' _ hkey]

theorem Proxy.tlsOK_rooted (p : Proxy) (h : p.Rooted) : p.tlsOK lib host base ↔ p.tlsOK lib host base' := by
  obtain ⟨htls, hup⟩ := h
  have hlistener : p.tls.all (ListenerTLS.ok lib host base) = p.tls.all (ListenerTLS.ok lib host base') := by
    cases ht : p.tls with
    | none => rfl
    | some t => exact t.ok_rooted lib host base base' (htls t ht)
  have hupstream : p.upstreamTLS.all (fun t => tlsUpstream p.upstream && t.ok lib host base) =
      p.upstreamTLS.all (fun t => tlsUpstream p.upstream && t.ok lib host base') := by
    cases ht : p.upstreamTLS with
    | none => rfl
    | some t => simp only [Option.all_some, t.ok_rooted lib host base base' (hup t ht)]
  rw [Proxy.tlsOK, Proxy.tlsOK, hlistener, hupstream]

theorem Proxy.absolute_rooted (p : Proxy) (h : p.Rooted) (hok : p.tlsOK lib host base) :
    p.absolute base = p.absolute base' := by
  obtain ⟨htls, hup⟩ := h
  obtain ⟨-, hlistener, -⟩ := hok
  have hfirst : p.tls.map (ListenerTLS.absolute base) = p.tls.map (ListenerTLS.absolute base') := by
    cases ht : p.tls with
    | none => rfl
    | some t =>
      rw [ht, Option.all_some] at hlistener
      rw [Option.map_some, Option.map_some, t.absolute_rooted lib host base base' (htls t ht) hlistener]
  have hsecond : p.upstreamTLS.map (UpstreamTLS.absolute base) =
      p.upstreamTLS.map (UpstreamTLS.absolute base') := by
    cases ht : p.upstreamTLS with
    | none => rfl
    | some t => rw [Option.map_some, Option.map_some, t.absolute_rooted base base' (hup t ht)]
  rw [Proxy.absolute, Proxy.absolute, hfirst, hsecond]

theorem normalizeUpstream_rooted (p : Proxy) (h : p.Rooted) :
    normalizeUpstream lib host base p = normalizeUpstream lib host base' p := by
  unfold normalizeUpstream
  by_cases htcp : p.protocol = "tcp"
  · rw [if_pos htcp, if_pos htcp]
  · rw [if_neg htcp, if_neg htcp]
    congr 1
    funext upstream
    have hsame := Proxy.tlsOK_rooted lib host base base' { p with upstream := upstream } h
    by_cases hok : ({ p with upstream := upstream } : Proxy).tlsOK lib host base
    · rw [if_pos hok, if_pos (hsame.mp hok),
        Proxy.absolute_rooted lib host base base' { p with upstream := upstream } h hok]
    · rw [if_neg hok, if_neg (fun hok' => hok (hsame.mpr hok'))]

theorem normalizeProxy_rooted (p : Proxy) (h : p.Rooted) :
    normalizeProxy lib host base p = normalizeProxy lib host base' p := by
  have hup (listen : String) := normalizeUpstream_rooted lib host base base'
    { p with
      upstreamProtocol := defaultUpstreamProtocol p.protocol p.upstreamProtocol
      listen := listen } h
  simp only [normalizeProxy, normalizeInfra, hup]

end Base

theorem resolve_rooted (file name : String) (h : isAbsString file = true) : RootedName (resolve file name) := by
  unfold resolve
  by_cases hname : name ≠ "" ∧ ¬ isAbsString name = true
  · rw [if_pos hname]
    right
    rw [isAbsString, joinString, String.toList_ofList]
    apply isAbs_joinPath
    rw [dirString, String.toList_ofList]
    exact isAbs_dirPath file.toList h
  · rw [if_neg hname]
    by_cases hempty : name = ""
    · exact Or.inl hempty
    · right
      by_contra habs
      exact hname ⟨hempty, habs⟩

theorem resolve_of_rooted (file name : String) (h : RootedName name) : resolve file name = name := by
  unfold resolve
  rw [if_neg]
  rintro ⟨hne, habs⟩
  exact habs (h.resolve_left hne)

theorem resolveTLS_rooted (file : String) (p : Proxy) (h : isAbsString file = true) :
    (resolveTLS file p).Rooted := by
  constructor
  · intro t ht
    obtain ⟨s, -, rfl⟩ := Option.map_eq_some_iff.mp ht
    exact ⟨resolve_rooted file _ h, resolve_rooted file _ h, resolve_rooted file _ h⟩
  · intro t ht
    obtain ⟨s, -, rfl⟩ := Option.map_eq_some_iff.mp ht
    exact ⟨resolve_rooted file _ h, resolve_rooted file _ h, resolve_rooted file _ h⟩

theorem resolveTLS_of_rooted (file : String) (p : Proxy) (h : p.Rooted) : resolveTLS file p = p := by
  obtain ⟨htls, hup⟩ := h
  have hfirst : p.tls.map (fun t => (⟨resolve file t.certFile, resolve file t.keyFile,
      resolve file t.clientCAFile⟩ : ListenerTLS)) = p.tls := by
    cases ht : p.tls with
    | none => rfl
    | some t =>
      obtain ⟨hcert, hkey, hca⟩ := htls t ht
      rw [Option.map_some, resolve_of_rooted file _ hcert, resolve_of_rooted file _ hkey,
        resolve_of_rooted file _ hca]
  have hsecond : p.upstreamTLS.map (fun t => (⟨resolve file t.caFile, resolve file t.certFile,
      resolve file t.keyFile⟩ : UpstreamTLS)) = p.upstreamTLS := by
    cases ht : p.upstreamTLS with
    | none => rfl
    | some t =>
      obtain ⟨hca, hcert, hkey⟩ := hup t ht
      rw [Option.map_some, resolve_of_rooted file _ hca, resolve_of_rooted file _ hcert,
        resolve_of_rooted file _ hkey]
  rw [resolveTLS, hfirst, hsecond]

/-! `finish` on the resolved configuration. -/

def resolvedConfig (c : Config) (sources : List ProxySource) : Config :=
  { c with proxies := resolved (c.proxies.zip sources) }

structure Normalized (lib : Library) (host : Host) (base : String) (c : Config) (d : Document) : Prop where
  proxyIDs : (c.proxies.map Proxy.id).Nodup
  ruleIDs : ∀ p ∈ c.proxies, (p.ruleList.map Rule.id).Nodup
  header : HeaderOK c
  proxies : c.proxies.mapM (normalizeProxy lib host base) = some d.config.proxies
  listeners : (d.config.proxies.map Proxy.listen).Nodup
  config : d.config = { c with proxies := d.config.proxies }
  document : newDocument lib d.config (d.config.digests lib host) = some d

theorem finish_iff_normalized (lib : Library) (host : Host) (c : Config) (sources : List ProxySource)
    (root : String) (d : Document) : finish lib host c sources root = .ok d ↔
      Normalized lib host (dirString root) (resolvedConfig c sources) d := by
  have hids : (resolvedConfig c sources).proxies.map Proxy.id =
      (c.proxies.zip sources).map (fun q => q.1.id) := by
    simp [resolvedConfig, resolved, resolveTLS, Function.comp_def]
  have hrules : (∀ p ∈ (resolvedConfig c sources).proxies, (p.ruleList.map Rule.id).Nodup) ↔
      ∀ q ∈ c.proxies.zip sources, (q.1.ruleList.map Rule.id).Nodup := List.forall_mem_map
  rw [finish_iff]
  constructor
  · intro h
    exact ⟨hids ▸ h.proxyIDs, hrules.mpr h.ruleIDs, h.header, h.proxies, h.listeners, h.config, h.document⟩
  · intro h
    exact ⟨hids ▸ h.proxyIDs, hrules.mp h.ruleIDs, h.header, h.proxies, h.listeners, h.config, h.document⟩

theorem mapM_congr_mem {α β : Type} (f g : α → Option β) (l : List α) (h : ∀ a ∈ l, f a = g a) :
    l.mapM f = l.mapM g := by
  induction l with
  | nil => rfl
  | cons a l ih =>
    rw [List.mapM_cons, List.mapM_cons, h a List.mem_cons_self,
      ih (fun b hb => h b (List.mem_cons_of_mem a hb))]

theorem Normalized.rebase {lib : Library} {host : Host} {base : String} {c : Config} {d : Document}
    (base' : String) (hrooted : ∀ p ∈ c.proxies, p.Rooted) (h : Normalized lib host base c d) :
    Normalized lib host base' c d := by
  have hsame := mapM_congr_mem _ _ c.proxies (fun p hp =>
    normalizeProxy_rooted lib host base base' p (hrooted p hp))
  exact ⟨h.proxyIDs, h.ruleIDs, h.header, hsame ▸ h.proxies, h.listeners, h.config, h.document⟩

theorem mapM_perm {α β : Type} (f : α → Option β) (l l' : List α) (h : l.Perm l') :
    ∀ m, l.mapM f = some m → ∃ m', l'.mapM f = some m' ∧ m.Perm m' := by
  induction h with
  | nil => exact fun m hm => ⟨m, hm, List.Perm.refl m⟩
  | cons a _ ih =>
    intro m hm
    simp only [List.mapM_cons, Option.bind_eq_bind, Option.bind_eq_some_iff, Option.pure_def,
      Option.some.injEq] at hm ⊢
    obtain ⟨b, hb, rest, hrest, rfl⟩ := hm
    obtain ⟨rest', hrest', hperm⟩ := ih rest hrest
    exact ⟨b :: rest', ⟨b, hb, rest', hrest', rfl⟩, hperm.cons b⟩
  | swap a a' l =>
    intro m hm
    simp only [List.mapM_cons, Option.bind_eq_bind, Option.bind_eq_some_iff, Option.pure_def,
      Option.some.injEq] at hm ⊢
    obtain ⟨b, hb, _, ⟨b', hb', rest, hrest, rfl⟩, rfl⟩ := hm
    exact ⟨b' :: b :: rest, ⟨b', hb', b :: rest, ⟨b, hb, rest, hrest, rfl⟩, rfl⟩, List.Perm.swap b' b rest⟩
  | trans _ _ ih ih' =>
    intro m hm
    obtain ⟨m', hm', hperm⟩ := ih m hm
    obtain ⟨m'', hm'', hperm'⟩ := ih' m' hm'
    exact ⟨m'', hm'', hperm.trans hperm'⟩

theorem normalizeProxy_id (lib : Library) (host : Host) (base : String) (p q : Proxy)
    (h : normalizeProxy lib host base p = some q) : q.id = p.id := by
  unfold normalizeProxy normalizeInfra at h
  simp only [Option.bind_eq_some_iff, Option.map_eq_some_iff] at h
  obtain ⟨r, ⟨_, -, listen, -, hr⟩, rules, -, rfl⟩ := h
  obtain ⟨upstream, tls, upstreamTLS, rfl⟩ := normalizeUpstream_keeps lib host base _ r hr
  rfl

theorem mapM_map {α β γ : Type} (f : α → Option β) (g : β → γ) (g' : α → γ)
    (hf : ∀ a b, f a = some b → g b = g' a) (l : List α) (m : List β) (h : l.mapM f = some m) :
    m.map g = l.map g' := by
  induction l generalizing m with
  | nil =>
    cases h
    rfl
  | cons a l ih =>
    simp only [List.mapM_cons, Option.bind_eq_bind, Option.bind_eq_some_iff, Option.pure_def,
      Option.some.injEq] at h
    obtain ⟨b, hb, rest, hrest, rfl⟩ := h
    rw [List.map_cons, List.map_cons, hf a b hb, ih rest hrest]

theorem newDocument_canonical (lib : Library) (c c' : Config) (t : Digests) (d : Document)
    (hc : canonical c = canonical c') (h : newDocument lib c t = some d) :
    newDocument lib c' t = some { d with config := c' } := by
  unfold newDocument at h ⊢
  rw [← hc]
  cases hfull : configHash lib (canonical c) t with
  | none => simp [hfull] at h
  | some full =>
    cases hrestart : configHash lib (restartPart (canonical c)) t with
    | none => simp [hfull, hrestart] at h
    | some restart =>
      simp only [hfull, hrestart, Option.some.injEq] at h ⊢
      rw [← h]

theorem digests_perm (lib : Library) (host : Host) (c c' : Config) (h : c.proxies.Perm c'.proxies)
    (hread : ∀ f ∈ c.tlsFiles, (host.readFile f).isSome) :
    c.digests lib host = c'.digests lib host := by
  have hmem := files_perm h
  apply OrdMap.ext_get?
  intro name
  rw [Config.digests, Config.digests, addFiles_get? lib host ∅ c.tlsFiles hread,
    addFiles_get? lib host ∅ c'.tlsFiles (fun f hf => hread f ((hmem f).mpr hf))]
  simp only [hmem name]

theorem Normalized.reorder {lib : Library} {host : Host} {base : String} {c c' : Config} {d : Document}
    (hsame : c.SameUpToOrder c') (h : Normalized lib host base c d) :
    ∃ d', Normalized lib host base c' d' ∧ d'.fingerprint = d.fingerprint := by
  obtain ⟨hversion, hseed, hruntime, hperm⟩ := hsame
  obtain ⟨qs, hqs, hqperm⟩ := mapM_perm _ _ _ hperm _ h.proxies
  have hids : (d.config.proxies.map Proxy.id).Nodup := by
    rw [mapM_map _ Proxy.id Proxy.id (fun p q hq => normalizeProxy_id lib host base p q hq) _ _ h.proxies]
    exact h.proxyIDs
  have hread : ∀ f ∈ d.config.tlsFiles, (host.readFile f).isSome := by
    intro f hf
    obtain ⟨q, hq, hf⟩ := List.mem_flatMap.mp hf
    obtain ⟨p, -, hp⟩ := mem_of_mapM _ _ _ h.proxies q hq
    exact normalizeProxy_readable lib host _ p q hp f hf
  have hconfig : d.config.SameUpToOrder { c' with proxies := qs } := by
    rw [h.config]
    exact ⟨hversion, hseed, hruntime, hqperm⟩
  have hcanonical := (canonical_eq_iff d.config { c' with proxies := qs } hids).mpr hconfig
  have hdoc := newDocument_canonical lib d.config { c' with proxies := qs } _ d hcanonical h.document
  rw [digests_perm lib host d.config { c' with proxies := qs } hqperm hread] at hdoc
  refine ⟨{ d with config := { c' with proxies := qs } }, ⟨?_, ?_, ?_, hqs, ?_, rfl, hdoc⟩, rfl⟩
  · exact (hperm.map Proxy.id).nodup_iff.mp h.proxyIDs
  · exact fun p hp => h.ruleIDs p (hperm.mem_iff.mpr hp)
  · obtain ⟨hv, hmax, htimeout, hne⟩ := h.header
    refine ⟨hversion ▸ hv, hruntime ▸ hmax, hruntime ▸ htimeout, ?_⟩
    intro hnil
    rw [hnil] at hperm
    exact hne hperm.eq_nil
  · exact (hqperm.map Proxy.listen).nodup_iff.mp h.listeners

/-! Split configurations. -/

structure Fragment where
  file : String
  identity : ℕ
  proxies : List Proxy

def Fragment.absolute (f : Fragment) : List Proxy := f.proxies.map (resolveTLS f.file)

def Fragment.sources (f : Fragment) : List ProxySource := proxySources f.file f.proxies.length

/-- A configuration split between a root file and the files that its patterns match. -/
structure Split where
  filename : String
  file : String
  identity : ℕ
  config : Config
  includes : List (String × List Fragment)

def Split.root (s : Split) : Fragment := ⟨s.file, s.identity, s.config.proxies⟩

def Split.fragments (s : Split) : List Fragment := s.includes.flatMap (·.2)

def Split.files (s : Split) : List Fragment := s.root :: s.fragments

def includePattern (root pattern : String) : String :=
  if isAbsString pattern then pattern else joinString (dirString root) pattern

/-- The file is a regular file with this identity, and its text decodes to the value. -/
def HoldsFile {α : Type} (y : Yaml) (host : Host) (f : Fragment) (decode : Decoder α) (zero value : α) :
    Prop :=
  ∃ data, host.stat f.file = some ⟨true, f.identity⟩ ∧ host.readFile f.file = some data ∧
    decodeDocument y decode data zero = .ok value

structure Split.On (s : Split) (y : Yaml) (host : Host) : Prop where
  filename : s.filename ≠ ""
  abs : host.abs s.filename = some s.file
  root : HoldsFile y host s.root (decodeRoot y) ⟨Config.zero, []⟩ ⟨s.config, s.includes.map (·.1)⟩
  patterns : ∀ e ∈ s.includes, e.1 ≠ "" ∧ e.2 ≠ [] ∧
    host.glob (includePattern s.file e.1) = some (e.2.map Fragment.file)
  fragments : ∀ f ∈ s.fragments, f.proxies ≠ [] ∧ HoldsFile y host f (decodeFragment y) [] f.proxies
  distinct : (s.files.map Fragment.identity).Nodup

/-- `filepath.Glob` finds a rooted pattern under rooted names. -/
def Host.GlobsRooted (host : Host) : Prop :=
  ∀ pattern files, isAbsString pattern = true → host.glob pattern = some files →
    ∀ file ∈ files, isAbsString file = true

def Split.whole (s : Split) : Config := { s.config with proxies := s.files.flatMap Fragment.absolute }

theorem Host.abs_rooted (host : Host) (path root : String) (h : host.abs path = some root) :
    isAbsString root = true := by
  unfold Host.abs absPath at h
  obtain ⟨chars, hchars, rfl⟩ := Option.map_eq_some_iff.mp h
  rw [isAbsString, String.toList_ofList]
  by_cases habs : isAbs path.toList = true
  · rw [if_pos habs] at hchars
    cases hchars
    exact isAbs_clean _ habs
  · rw [if_neg habs] at hchars
    obtain ⟨dir, hdir, rfl⟩ := Option.map_eq_some_iff.mp hchars
    obtain ⟨wd, hwd, rfl⟩ := Option.map_eq_some_iff.mp hdir
    exact isAbs_joinPath _ _ (host.getwd_rooted wd hwd)

theorem includePattern_rooted (root pattern : String) (h : isAbsString root = true) :
    isAbsString (includePattern root pattern) = true := by
  unfold includePattern
  by_cases habs : isAbsString pattern = true
  · rw [if_pos habs]
    exact habs
  · rw [if_neg habs, isAbsString, joinString, String.toList_ofList]
    apply isAbs_joinPath
    rw [dirString, String.toList_ofList]
    exact isAbs_dirPath root.toList h

theorem Split.On.rooted {s : Split} {y : Yaml} {host : Host} (hglob : host.GlobsRooted) (h : s.On y host) :
    ∀ f ∈ s.files, isAbsString f.file = true := by
  have hroot := host.abs_rooted s.filename s.file h.abs
  intro f hf
  rcases List.mem_cons.mp hf with rfl | hf
  · exact hroot
  · obtain ⟨e, he, hf⟩ := List.mem_flatMap.mp hf
    obtain ⟨-, -, hfiles⟩ := h.patterns e he
    exact hglob _ _ (includePattern_rooted s.file e.1 hroot) hfiles f.file (List.mem_map_of_mem hf)

def Included.add (acc : Included) (fs : List Fragment) : Included :=
  ⟨acc.seen ++ fs.map (fun f => (f.file, f.identity)), acc.proxies ++ fs.flatMap Fragment.proxies,
    acc.sources ++ fs.flatMap Fragment.sources⟩

theorem Included.add_append (acc : Included) (fs gs : List Fragment) :
    acc.add (fs ++ gs) = (acc.add fs).add gs := by
  simp [Included.add]

section Files
variable {y : Yaml} {host : Host} (root : String)

theorem includeFile_eq (field : String) (acc : Included) (f : Fragment) (hne : f.proxies ≠ [])
    (hfile : HoldsFile y host f (decodeFragment y) [] f.proxies)
    (hnew : f.identity ∉ acc.seen.map (·.2)) :
    includeFile y host root field acc f.file = .ok (acc.add [f]) := by
  obtain ⟨data, hstat, hread, hdecode⟩ := hfile
  have hfind : acc.seen.find? (fun s => s.2 = f.identity) = none := by
    apply List.find?_eq_none.mpr
    intro e he heq
    exact hnew (List.mem_map.mpr ⟨e, he, of_decide_eq_true heq⟩)
  have hsource : sourceError f.file (decodeDocument y (decodeFragment y) data []) = .ok f.proxies := by
    rw [hdecode]
    rfl
  unfold includeFile
  simp only [hstat, hfind, hread, hsource, Bool.not_true, Bool.false_eq_true, if_false]
  show (if f.proxies = [] then _ else _) = _
  rw [if_neg hne]
  simp [Included.add, Fragment.sources]

theorem includeFiles_eq (field : String) (acc : Included) (fs : List Fragment)
    (hfiles : ∀ f ∈ fs, f.proxies ≠ [] ∧ HoldsFile y host f (decodeFragment y) [] f.proxies)
    (hnew : (acc.seen.map (·.2) ++ fs.map Fragment.identity).Nodup) :
    includeFiles y host root field acc (fs.map Fragment.file) = .ok (acc.add fs) := by
  induction fs generalizing acc with
  | nil => simp [includeFiles, Included.add]
  | cons f fs ih =>
    obtain ⟨hne, hfile⟩ := hfiles f List.mem_cons_self
    have hfresh : f.identity ∉ acc.seen.map (·.2) := by
      intro hmem
      exact (List.nodup_append.mp hnew).2.2 _ hmem _ List.mem_cons_self rfl
    have hstep := includeFile_eq root field acc f hne hfile hfresh
    have hrest := ih (acc.add [f]) (fun g hg => hfiles g (List.mem_cons_of_mem f hg))
      (by simpa [Included.add] using hnew)
    rw [List.map_cons, includeFiles, hstep]
    show includeFiles y host root field (acc.add [f]) (fs.map Fragment.file) = _
    rw [hrest, ← Included.add_append]
    rfl

theorem includePatterns_eq (i : ℕ) (acc : Included) (es : List (String × List Fragment))
    (hpatterns : ∀ e ∈ es, e.1 ≠ "" ∧ e.2 ≠ [] ∧
      host.glob (includePattern root e.1) = some (e.2.map Fragment.file))
    (hfiles : ∀ f ∈ es.flatMap (·.2), f.proxies ≠ [] ∧ HoldsFile y host f (decodeFragment y) [] f.proxies)
    (hnew : (acc.seen.map (·.2) ++ (es.flatMap (·.2)).map Fragment.identity).Nodup) :
    includePatterns y host root acc i (es.map (·.1)) = .ok (acc.add (es.flatMap (·.2))) := by
  induction es generalizing i acc with
  | nil => simp [includePatterns, Included.add]
  | cons e es ih =>
    obtain ⟨hname, hsome, hglob⟩ := hpatterns e List.mem_cons_self
    rw [List.flatMap_cons, List.map_append, ← List.append_assoc] at hnew
    have hstep := includeFiles_eq root (elementPath "include" i) acc e.2
      (fun f hf => hfiles f (List.mem_append_left _ hf)) (List.nodup_append.mp hnew).1
    have hrest := ih (i+1) (acc.add e.2) (fun d hd => hpatterns d (List.mem_cons_of_mem e hd))
      (fun f hf => hfiles f (List.mem_append_right _ hf))
      (by simpa [Included.add, Function.comp_def] using hnew)
    have hglob' : host.glob (if isAbsString e.1 then e.1 else joinString (dirString root) e.1) =
        some (e.2.map Fragment.file) := hglob
    rw [List.map_cons, includePatterns, if_neg hname]
    simp only [hglob', List.map_eq_nil_iff, if_neg hsome, hstep]
    show includePatterns y host root (acc.add e.2) (i+1) (es.map (·.1)) = _
    rw [hrest, ← Included.add_append]
    rfl

end Files

theorem resolved_zip (file : String) (ps : List Proxy) (sources : List ProxySource)
    (hlen : ps.length = sources.length) (hfile : ∀ src ∈ sources, src.file = file) :
    resolved (ps.zip sources) = ps.map (resolveTLS file) := by
  induction ps generalizing sources with
  | nil => rfl
  | cons p ps ih =>
    cases sources with
    | nil => cases hlen
    | cons src sources =>
      have hrest := ih sources (by simpa using hlen) (fun s hs => hfile s (List.mem_cons_of_mem src hs))
      have hsrc := hfile src List.mem_cons_self
      simp only [resolved] at hrest
      simp only [resolved, List.zip_cons_cons, List.map_cons, hrest, hsrc]

theorem Fragment.length_sources (f : Fragment) : f.sources.length = f.proxies.length := by
  simp [Fragment.sources, proxySources]

theorem Fragment.resolved_sources (f : Fragment) : resolved (f.proxies.zip f.sources) = f.absolute := by
  apply resolved_zip f.file f.proxies f.sources f.length_sources.symm
  intro src hsrc
  obtain ⟨i, -, rfl⟩ := List.mem_map.mp hsrc
  rfl

theorem resolved_files (fs : List Fragment) :
    resolved ((fs.flatMap Fragment.proxies).zip (fs.flatMap Fragment.sources)) =
      fs.flatMap Fragment.absolute := by
  induction fs with
  | nil => rfl
  | cons f fs ih =>
    rw [List.flatMap_cons, List.flatMap_cons, List.zip_append f.length_sources.symm, List.flatMap_cons,
      ← f.resolved_sources, ← ih]
    simp [resolved]

theorem load_split (lib : Library) {s : Split} {y : Yaml} {host : Host} (h : s.On y host) (d : Document) :
    load lib y host s.filename = .ok d ↔ Normalized lib host (dirString s.file) s.whole d := by
  obtain ⟨data, hstat, hread, hdecode⟩ := h.root
  have hsource : sourceError s.file (decodeDocument y (decodeRoot y) data ⟨Config.zero, []⟩) =
      .ok ⟨s.config, s.includes.map (·.1)⟩ := by
    rw [hdecode]
    rfl
  have hpatterns := includePatterns_eq s.file 0
    ⟨[(s.file, s.identity)], s.config.proxies, proxySources s.file s.config.proxies.length⟩ s.includes
    h.patterns h.fragments h.distinct
  have hload : load lib y host s.filename = finish lib host
      { s.config with proxies := s.files.flatMap Fragment.proxies } (s.files.flatMap Fragment.sources)
      s.file := by
    unfold load
    rw [if_neg h.filename, h.abs]
    simp only [Split.root] at hstat hread
    simp only [hstat, hread, hsource, Bool.not_true, Bool.false_eq_true, if_false]
    show (includePatterns y host s.file ⟨[(s.file, s.identity)], s.config.proxies,
      proxySources s.file s.config.proxies.length⟩ 0 (s.includes.map (·.1)) >>= _) = _
    rw [hpatterns]
    rfl
  rw [hload, finish_iff_normalized]
  simp only [resolvedConfig, resolved_files, Split.whole]

theorem parse_rooted (lib : Library) (y : Yaml) (host : Host) (data : Bytes) (filename absolute : String)
    (c : Config) (d : Document) (hname : filename ≠ "") (habs : host.abs filename = some absolute)
    (hdecode : decodeDocument y (decodeConfig y) data Config.zero = .ok c)
    (hrooted : ∀ p ∈ c.proxies, p.Rooted) :
    parse lib y host data filename = .ok d ↔ Normalized lib host (dirString absolute) c d := by
  have hsource : sourceError absolute (decodeDocument y (decodeConfig y) data Config.zero) = .ok c := by
    rw [hdecode]
    rfl
  have hresolved : resolvedConfig c (proxySources absolute c.proxies.length) = c := by
    have hmap : c.proxies.map (resolveTLS absolute) = c.proxies := by
      calc c.proxies.map (resolveTLS absolute) = c.proxies.map id :=
            List.map_congr_left (fun p hp => resolveTLS_of_rooted absolute p (hrooted p hp))
        _ = c.proxies := List.map_id _
    have hzip := Fragment.resolved_sources ⟨absolute, 0, c.proxies⟩
    simp only [Fragment.sources, Fragment.absolute, hmap] at hzip
    rw [resolvedConfig, hzip]
  have hparse : parse lib y host data filename =
      finish lib host c (proxySources absolute c.proxies.length) absolute := by
    unfold parse
    rw [if_neg hname, habs]
    simp only [hsource]
    rfl
  rw [hparse, finish_iff_normalized, hresolved]

/-! Layout independence. -/

/-- Two proxies share an ID or a listener, or two rules of a proxy share an ID. -/
def Duplicated (ps : List Proxy) : Prop :=
  ¬ ps.Pairwise (fun p q => p.id ≠ q.id ∧
      ∀ listen, validateListen "" p.listen = .ok listen → validateListen "" q.listen ≠ .ok listen) ∨
    ∃ p ∈ ps, ¬ (p.ruleList.map Rule.id).Nodup

theorem normalizeProxy_listen (lib : Library) (host : Host) (base : String) (p q : Proxy)
    (h : normalizeProxy lib host base p = some q) : validateListen "" p.listen = .ok q.listen := by
  unfold normalizeProxy normalizeInfra at h
  simp only [Option.bind_eq_some_iff, Option.map_eq_some_iff] at h
  obtain ⟨r, ⟨_, -, listen, hlisten, hr⟩, rules, -, rfl⟩ := h
  obtain ⟨upstream, tls, upstreamTLS, rfl⟩ := normalizeUpstream_keeps lib host base _ r hr
  exact (toOption_eq_some _ _).mp hlisten

theorem Normalized.unique {lib : Library} {host : Host} {base : String} {c : Config} {d : Document}
    (h : Normalized lib host base c d) : ¬ Duplicated c.proxies := by
  rintro (hpair | ⟨p, hp, hrules⟩)
  · apply hpair
    have hids : c.proxies.Pairwise (fun p q => p.id ≠ q.id) := List.pairwise_map.mp h.proxyIDs
    have hlisten : c.proxies.Pairwise (fun p q => ∀ listen, validateListen "" p.listen = .ok listen →
        validateListen "" q.listen ≠ .ok listen) := by
      have hmap := mapM_map _ (fun q : Proxy => (Except.ok q.listen : Except FieldError String))
        (fun p => validateListen "" p.listen)
        (fun p q hq => (normalizeProxy_listen lib host base p q hq).symm) _ _ h.proxies
      have hnodup : (c.proxies.map (fun p => validateListen "" p.listen)).Nodup := by
        rw [← hmap]
        have := h.listeners.map (f := fun l => (Except.ok l : Except FieldError String))
          (fun a b hab => Except.ok.inj hab)
        simpa [Function.comp_def] using this
      refine (List.pairwise_map.mp hnodup).imp ?_
      intro p q hne listen hp hq
      exact hne (hp.trans hq.symm)
    exact hids.and hlisten
  · exact hrules (h.ruleIDs p hp)

def Proxy.key (p : Proxy) : String × String × List String := (p.id, p.listen, p.ruleList.map Rule.id)

theorem duplicated_iff (ps : List Proxy) : Duplicated ps ↔
    ¬ (ps.map Proxy.key).Pairwise (fun p q => p.1 ≠ q.1 ∧
      ∀ listen, validateListen "" p.2.1 = .ok listen → validateListen "" q.2.1 ≠ .ok listen) ∨
    ∃ k ∈ ps.map Proxy.key, ¬ k.2.2.Nodup := by
  simp only [List.pairwise_map, List.mem_map, exists_exists_and_eq_and]
  rfl

theorem Split.duplicated (s : Split) :
    Duplicated s.whole.proxies ↔ Duplicated (s.files.flatMap Fragment.proxies) := by
  have hkeys : s.whole.proxies.map Proxy.key = (s.files.flatMap Fragment.proxies).map Proxy.key := by
    simp only [Split.whole, List.map_flatMap, Fragment.absolute, List.map_map]
    rfl
  rw [duplicated_iff, duplicated_iff, hkeys]

/-- What the layout of a configuration over files does not change. -/
structure LayoutLaw (lib : Library) (y : Yaml) (host : Host) (s : Split) (data : Bytes) (filename : String) :
    Prop where
  accepted : (∃ d, load lib y host s.filename = .ok d) ↔ ∃ d, parse lib y host data filename = .ok d
  equal : ∀ d e, load lib y host s.filename = .ok d → parse lib y host data filename = .ok e →
    documentEqual (some d) (some e) = true
  duplicates : Duplicated (s.files.flatMap Fragment.proxies) →
    (∀ d, load lib y host s.filename ≠ .ok d) ∧ ∀ d, parse lib y host data filename ≠ .ok d

/-! A proxy in the root file and one in an included file. -/

def splitSample : Split where
  filename := "/etc/faultline.yaml"
  file := "/etc/faultline.yaml"
  identity := 1
  config := pairConfig [sampleProxy []]
  includes := [("conf.d/*.yaml", [⟨"/etc/conf.d/web.yaml", 2, [secondProxy]⟩])]

def rootText : Bytes := bytesOf (pairHeader ++ firstText ++ "include:\n    - conf.d/*.yaml\n")

def webText : Bytes := bytesOf ("proxies:\n" ++ secondText)

def flatText : Bytes := bytesOf (pairHeader ++ secondText ++ firstText)

def rootNode : Node :=
  match prune (encodeConfig (standardYaml [] .alias) splitSample.config) with
  | .mapping tag content =>
    .mapping tag (content ++ [.str "include", .sequence "!!seq" [.str "conf.d/*.yaml"]])
  | n => n

def webNode : Node :=
  .mapping "!!map" [.str "proxies",
    .sequence "!!seq" [prune (encodeProxy (standardYaml [] .alias) secondProxy)]]

def splitYaml : Yaml :=
  ((pairYaml flatText [secondProxy, sampleProxy []]).withText webText webNode).withText rootText rootNode

def splitHost : Host :=
  { sampleHost with
    readFile := fun name =>
      if name = "/etc/faultline.yaml" then some rootText
      else if name = "/etc/conf.d/web.yaml" then some webText
      else none
    stat := fun name =>
      if name = "/etc/faultline.yaml" then some ⟨true, 1⟩
      else if name = "/etc/conf.d/web.yaml" then some ⟨true, 2⟩
      else none
    glob := fun pattern =>
      some (if pattern = "/etc/conf.d/*.yaml" then ["/etc/conf.d/web.yaml"] else []) }

theorem splitSample_on : splitSample.On splitYaml splitHost where
  filename := by decide
  abs := by decide +kernel
  root := ⟨rootText, rfl, rfl, by
    rw [← toOption_eq_some]
    decide +kernel⟩
  patterns := by
    intro e he
    cases List.mem_singleton.mp he
    decide +kernel
  fragments := by
    intro f hf
    cases List.mem_singleton.mp hf
    refine ⟨by decide +kernel, webText, rfl, rfl, ?_⟩
    rw [← toOption_eq_some]
    decide +kernel
  distinct := by decide

theorem splitHost_globs : splitHost.GlobsRooted := by
  intro pattern files _ hglob file hfile
  cases hglob
  split_ifs at hfile
  · cases List.mem_singleton.mp hfile
    decide +kernel
  · cases hfile

theorem flat_decoded : decodeDocument splitYaml (decodeConfig splitYaml) flatText Config.zero =
    .ok (pairConfig [secondProxy, sampleProxy []]) := by
  rw [← toOption_eq_some]
  decide +kernel

theorem layout_independence (lib : Library) (y : Yaml) (host : Host) (hglob : host.GlobsRooted) (s : Split)
    (hs : s.On y host) (flat : Config) (hflat : s.whole.SameUpToOrder flat) (data : Bytes)
    (hdata : decodeDocument y (decodeConfig y) data Config.zero = .ok flat) (filename : String)
    (hname : filename ≠ "") (habs : (host.abs filename).isSome) :
    LayoutLaw lib y host s data filename := by
  obtain ⟨absolute, habs⟩ := Option.isSome_iff_exists.mp habs
  have hwhole : ∀ p ∈ s.whole.proxies, p.Rooted := by
    intro p hp
    obtain ⟨f, hf, hp⟩ := List.mem_flatMap.mp hp
    obtain ⟨q, -, rfl⟩ := List.mem_map.mp hp
    exact resolveTLS_rooted f.file q (hs.rooted hglob f hf)
  have hrooted : ∀ p ∈ flat.proxies, p.Rooted := fun p hp => hwhole p (hflat.2.2.2.mem_iff.mpr hp)
  have hload := load_split lib hs
  have hparse (d : Document) := parse_rooted lib y host data filename absolute flat d hname habs hdata hrooted
  -- both ways the list of the other is a permutation, and the base directory does not matter
  have hto (d : Document) (h : load lib y host s.filename = .ok d) :
      ∃ e, parse lib y host data filename = .ok e ∧ e.fingerprint = d.fingerprint := by
    obtain ⟨e, he, hprint⟩ := (((hload d).mp h).rebase (dirString absolute) hwhole).reorder hflat
    exact ⟨e, (hparse e).mpr he, hprint⟩
  have hfrom (e : Document) (h : parse lib y host data filename = .ok e) :
      ∃ d, load lib y host s.filename = .ok d := by
    obtain ⟨d, hd, -⟩ := (((hparse e).mp h).rebase (dirString s.file) hrooted).reorder hflat.symm
    exact ⟨d, (hload d).mpr hd⟩
  have haccepted : (∃ d, load lib y host s.filename = .ok d) ↔ ∃ d, parse lib y host data filename = .ok d := by
    constructor
    · rintro ⟨d, hd⟩
      obtain ⟨e, he, -⟩ := hto d hd
      exact ⟨e, he⟩
    · rintro ⟨e, he⟩
      exact hfrom e he
  refine ⟨haccepted, ?_, ?_⟩
  · intro d e hd he
    obtain ⟨e', he', hprint⟩ := hto d hd
    cases he.symm.trans he'
    have hvalid := (newDocument_some lib _ _ d ((hload d).mp hd).document).2
    have hvalid' := (newDocument_some lib _ _ e ((hparse e).mp he).document).2
    simp [documentEqual, documentValid, hvalid, hvalid', hprint]
  · intro hdup
    have hnone (d : Document) : load lib y host s.filename ≠ .ok d := by
      intro hd
      exact ((hload d).mp hd).unique (s.duplicated.mpr hdup)
    refine ⟨hnone, fun e he => ?_⟩
    obtain ⟨d, hd⟩ := hfrom e he
    exact hnone d hd

theorem layout_independence_included : ∃ d e,
    load standardLibrary splitYaml splitHost "/etc/faultline.yaml" = .ok d ∧
    parse standardLibrary splitYaml splitHost flatText "/srv/flat.yaml" = .ok e ∧
    documentEqual (some d) (some e) = true := by
  have hlaw := layout_independence standardLibrary splitYaml splitHost splitHost_globs splitSample
    splitSample_on (pairConfig [secondProxy, sampleProxy []]) ⟨rfl, rfl, rfl, List.Perm.swap _ _ _⟩ flatText
    flat_decoded "/srv/flat.yaml" (by decide) (by decide +kernel)
  have hparse : (parse standardLibrary splitYaml splitHost flatText "/srv/flat.yaml").toOption.isSome := by
    decide +kernel
  obtain ⟨e, he⟩ := Option.isSome_iff_exists.mp hparse
  have he := (toOption_eq_some _ e).mp he
  obtain ⟨d, hd⟩ := hlaw.accepted.mpr ⟨e, he⟩
  exact ⟨d, e, hd, he, hlaw.equal d e hd he⟩

end Faultline
