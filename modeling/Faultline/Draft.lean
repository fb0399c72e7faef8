import Faultline.ConfigRoundTrip
import Faultline.Service

/-! Drafts of the managed server: new rules for every proxy of the active configuration. The
edited configuration is written out and parsed, so that a draft passes the same checks as a file. -/
namespace Faultline
namespace Managed

structure ProxyDraft where
  id : String
  rules : List Rule

structure Draft where
  baseRevision : ℕ
  proxies : List ProxyDraft

inductive DraftError where
  | incomplete
  | duplicate
  | unknown
  | config (e : LoadError)

/-- The inner loop of `Server.document`: the first proxy with the ID gets the rules. -/
def setRules (edit : ProxyDraft) : List Proxy → Option (List Proxy)
  | [] => none
  | p :: rest =>
    if p.id = edit.id then some ({ p with rules := some edit.rules } :: rest)
    else (setRules edit rest).map (p :: ·)

def editProxies (seen : List String) : List ProxyDraft → List Proxy → Except DraftError (List Proxy)
  | [], proxies => .ok proxies
  | edit :: rest, proxies =>
    if edit.id ∈ seen then .error .duplicate
    else match setRules edit proxies with
    | none => .error .unknown
    | some proxies => editProxies (edit.id :: seen) rest proxies

/-- `Server.document`. -/
def document (lib : Library) (y : Yaml) (host : Host) (dir : String) (active : Config) (d : Draft) :
    Except DraftError Document :=
  if d.proxies.length ≠ active.proxies.length then .error .incomplete
  else match editProxies [] d.proxies active.proxies with
  | .error e => .error e
  | .ok proxies =>
    match parse lib y host (encode y { active with proxies := proxies }) (joinString dir "active.yaml") with
    | .error e => .error (.config e)
    | .ok document => .ok document

/-! The edits. -/

def edited (edits : List ProxyDraft) (p : Proxy) : Proxy :=
  match edits.find? (fun e => e.id = p.id) with
  | some e => { p with rules := some e.rules }
  | none => p

theorem edited_id (edits : List ProxyDraft) (p : Proxy) : (edited edits p).id = p.id := by
  unfold edited
  split <;> rfl

theorem setRules_some (edit : ProxyDraft) (ps qs : List Proxy) (hids : (ps.map Proxy.id).Nodup)
    (h : setRules edit ps = some qs) : edit.id ∈ ps.map Proxy.id ∧ qs = ps.map (edited [edit]) := by
  induction ps generalizing qs with
  | nil => cases h
  | cons p ps ih =>
    rw [List.map_cons, List.nodup_cons] at hids
    unfold setRules at h
    by_cases hp : p.id = edit.id
    · rw [if_pos hp] at h
      cases h
      refine ⟨by simp [hp], ?_⟩
      -- no other proxy has the ID
      have hrest : ps.map (edited [edit]) = ps := by
        have hsame : ∀ q ∈ ps, edited [edit] q = q := by
          intro q hq
          have hne : ¬ edit.id = q.id := by
            intro heq
            exact hids.1 (List.mem_map.mpr ⟨q, hq, by rw [hp, heq]⟩)
          simp [edited, hne]
        rw [List.map_congr_left hsame, List.map_id']
      rw [List.map_cons, hrest]
      simp [edited, hp]
    · rw [if_neg hp] at h
      obtain ⟨rest, hrest, rfl⟩ := Option.map_eq_some_iff.mp h
      obtain ⟨hmem, rfl⟩ := ih rest hids.2 hrest
      refine ⟨List.mem_cons_of_mem _ hmem, ?_⟩
      have hne : ¬ edit.id = p.id := fun heq => hp heq.symm
      rw [List.map_cons]
      simp [edited, hne]

theorem edited_cons (edit : ProxyDraft) (edits : List ProxyDraft) (h : edit.id ∉ edits.map ProxyDraft.id)
    (p : Proxy) : edited edits (edited [edit] p) = edited (edit :: edits) p := by
  by_cases hp : edit.id = p.id
  · have hnone : edits.find? (fun e => e.id = p.id) = none := by
      apply List.find?_eq_none.mpr
      intro e he heq
      exact h (List.mem_map.mpr ⟨e, he, by rw [of_decide_eq_true heq, hp]⟩)
    simp [edited, hp, hnone]
  · simp [edited, hp]

theorem editProxies_ok (seen : List String) (edits : List ProxyDraft) (ps qs : List Proxy)
    (hids : (ps.map Proxy.id).Nodup) (h : editProxies seen edits ps = .ok qs) :
    (edits.map ProxyDraft.id).Nodup ∧ (∀ e ∈ edits, e.id ∉ seen) ∧
      (∀ e ∈ edits, e.id ∈ ps.map Proxy.id) ∧ qs = ps.map (edited edits) := by
  induction edits generalizing seen ps with
  | nil =>
    have hmap : ps.map (edited []) = ps := by
      have hsame : ∀ p ∈ ps, edited [] p = p := fun _ _ => rfl
      rw [List.map_congr_left hsame, List.map_id']
    exact ⟨List.nodup_nil, by simp, by simp, (Except.ok.inj h).symm.trans hmap.symm⟩
  | cons edit edits ih =>
    unfold editProxies at h
    split_ifs at h with hseen
    split at h
    · cases h
    · next ps' hset =>
      obtain ⟨hmem, rfl⟩ := setRules_some edit ps ps' hids hset
      have hkept : (ps.map (edited [edit])).map Proxy.id = ps.map Proxy.id := by
        rw [List.map_map]
        exact List.map_congr_left (fun p _ => edited_id [edit] p)
      obtain ⟨hnodup, hfresh, hknown, rfl⟩ := ih (edit.id :: seen) _ (hkept ▸ hids) h
      have hnew : edit.id ∉ edits.map ProxyDraft.id := by
        intro hin
        obtain ⟨e, he, heq⟩ := List.mem_map.mp hin
        exact hfresh e he (heq ▸ List.mem_cons_self)
      refine ⟨List.nodup_cons.mpr ⟨hnew, hnodup⟩, ?_, ?_, ?_⟩
      · exact List.forall_mem_cons.mpr ⟨hseen, fun e he hin => hfresh e he (List.mem_cons_of_mem _ hin)⟩
      · exact List.forall_mem_cons.mpr ⟨hmem, fun e he => hkept ▸ hknown e he⟩
      · rw [List.map_map]
        exact List.map_congr_left (fun p _ => edited_cons edit edits hnew p)

/-- As many edits as proxies: every proxy is edited, by one edit. -/
theorem edits_perm (edits : List ProxyDraft) (ps : List Proxy) (hlength : edits.length = ps.length)
    (hnodup : (edits.map ProxyDraft.id).Nodup) (hknown : ∀ e ∈ edits, e.id ∈ ps.map Proxy.id) :
    (edits.map ProxyDraft.id).Perm (ps.map Proxy.id) := by
  apply List.Subperm.perm_of_length_le
  · apply List.subperm_of_subset hnodup
    intro id hid
    obtain ⟨e, he, rfl⟩ := List.mem_map.mp hid
    exact hknown e he
  · simp [hlength]

theorem edited_eq (edits : List ProxyDraft) (p : Proxy) (h : p.id ∈ edits.map ProxyDraft.id) :
    ∃ e ∈ edits, e.id = p.id ∧ edited edits p = { p with rules := some e.rules } := by
  unfold edited
  cases hfind : edits.find? (fun e => e.id = p.id) with
  | none =>
    obtain ⟨e, he, heq⟩ := List.mem_map.mp h
    exact absurd (decide_eq_true heq) (List.find?_eq_none.mp hfind e he)
  | some e =>
    exact ⟨e, List.mem_of_find?_eq_some hfind, by simpa using List.find?_some hfind, rfl⟩

/-! The document of a draft. -/

def Redrawn (edits : List ProxyDraft) (p q : Proxy) : Prop :=
  ∃ e ∈ edits, e.id = p.id ∧ ∃ rules, normalizeRules p.protocol (e.rules.map Rule.fill) = some rules ∧
    q = { p with rules := some rules }

structure DraftAccepted (active : Document) (d : Draft) (e : Document) : Prop where
  named : (d.proxies.map ProxyDraft.id).Perm (active.config.proxies.map Proxy.id)
  config : e.config = { active.config with proxies := e.config.proxies }
  proxies : List.Forall₂ (Redrawn d.proxies) active.config.proxies e.config.proxies
  valid : e.valid = true
  compatible : restartCompatible (some active) (some e) = true

theorem forall₂_mapM {α β γ : Type} {R : α → β → Prop} {S : α → γ → Prop} (f : β → Option γ) (l : List α)
    (m : List β) (n : List γ) (h : List.Forall₂ R l m) (hm : m.mapM f = some n)
    (hstep : ∀ a ∈ l, ∀ b c, R a b → f b = some c → S a c) : List.Forall₂ S l n := by
  induction h generalizing n with
  | nil =>
    cases hm
    exact .nil
  | @cons a b l m hab _ ih =>
    simp only [List.mapM_cons, Option.bind_eq_bind, Option.bind_eq_some_iff, Option.pure_def,
      Option.some.injEq] at hm
    obtain ⟨c, hc, rest, hrest, rfl⟩ := hm
    exact .cons (hstep a List.mem_cons_self b c hab hc)
      (ih rest hrest (fun a ha => hstep a (List.mem_cons_of_mem _ ha)))

theorem forall₂_right {α β : Type} {R : α → β → Prop} {P : β → Prop} (l : List α) (m : List β)
    (h : List.Forall₂ R l m) (hP : ∀ a ∈ l, ∀ b, R a b → P b) : ∀ b ∈ m, P b := by
  induction h with
  | nil => simp
  | @cons a b l m hab _ ih =>
    exact List.forall_mem_cons.mpr ⟨hP a List.mem_cons_self b hab,
      ih (fun a ha => hP a (List.mem_cons_of_mem _ ha))⟩

theorem forall₂_mem_imp {α β : Type} {R S : α → β → Prop} (l : List α) (m : List β)
    (h : List.Forall₂ R l m) (hS : ∀ a ∈ l, ∀ b, R a b → S a b) : List.Forall₂ S l m := by
  induction h with
  | nil => exact .nil
  | @cons a b l m hab _ ih =>
    exact .cons (hS a List.mem_cons_self b hab) (ih (fun a ha => hS a (List.mem_cons_of_mem _ ha)))

theorem forall₂_map_eq {α β γ : Type} {R : α → β → Prop} (f : α → γ) (g : β → γ) (l : List α) (m : List β)
    (h : List.Forall₂ R l m) (hfg : ∀ a b, R a b → g b = f a) : m.map g = l.map f := by
  induction h with
  | nil => rfl
  | cons hab _ ih => rw [List.map_cons, List.map_cons, hfg _ _ hab, ih]

theorem redrawn_files {edits : List ProxyDraft} {c c' : Config}
    (h : List.Forall₂ (Redrawn edits) c.proxies c'.proxies) : c'.tlsFiles = c.tlsFiles := by
  have hmap := forall₂_map_eq Proxy.tlsFiles Proxy.tlsFiles _ _ h (by
    rintro p q ⟨edit, -, -, rules, -, rfl⟩
    rfl)
  simp only [Config.tlsFiles, List.flatMap_def, hmap]

theorem restartFingerprint_eq (lib : Library) (c c' : Config) (t : Digests) (d d' : Document)
    (h : newDocument lib c t = some d) (h' : newDocument lib c' t = some d')
    (hsame : restartPart c = restartPart c') : d.restartFingerprint = d'.restartFingerprint := by
  have hpart : restartPart (canonical c) = restartPart (canonical c') := by
    rw [restartPart_canonical, restartPart_canonical, hsame]
  unfold newDocument at h h'
  rw [← hpart] at h'
  cases hrestart : configHash lib (restartPart (canonical c)) t with
  | none =>
    cases hfull : configHash lib (canonical c) t <;> simp [hfull, hrestart] at h
  | some restart =>
    cases hfull : configHash lib (canonical c) t with
    | none => simp [hfull] at h
    | some full =>
      cases hfull' : configHash lib (canonical c') t with
      | none => simp [hfull'] at h'
      | some full' =>
        simp only [hfull, hfull', hrestart, Option.some.injEq] at h h'
        rw [← h, ← h']

theorem document_parsed {lib : Library} {y : Yaml} {host : Host} {dir : String} {active : Config} {d : Draft}
    {e : Document} (h : document lib y host dir active d = .ok e) : Accepted lib y host e := by
  unfold document at h
  split_ifs at h
  split at h
  · cases h
  split at h
  · cases h
  next hparse =>
  cases h
  exact Or.inl ⟨_, _, hparse⟩

section Law
variable {lib : Library} {y : Yaml} {host host' : Host} {active e : Document} {d : Draft} {dir : String}

theorem normalize_edited (hd : NormalDocument lib host active)
    (hfiles : ∀ f ∈ active.config.tlsFiles, host'.readFile f = host.readFile f) (base : String)
    (edit : ProxyDraft) (p q r : Proxy) (hp : p ∈ active.config.proxies)
    (hq : Proxy.Reread { p with rules := some edit.rules } q)
    (hr : normalizeProxy lib host' base q = some r) :
    ∃ rules, normalizeRules p.protocol (edit.rules.map Rule.fill) = some rules ∧
      r = { p with rules := some rules } := by
  obtain ⟨rules, rfl, hreread⟩ := hq
  have hinfra := (hd.proxies p hp).infra host' base (some rules)
    (fun f hf => hfiles f (List.mem_flatMap.mpr ⟨p, hp, hf⟩))
  have hrules := normalizeRules_reread p.protocol edit.rules rules hreread
  unfold normalizeProxy at hr
  simp only [hinfra, Option.bind_some, Option.map_eq_some_iff] at hr
  obtain ⟨normal, hnormal, rfl⟩ := hr
  exact ⟨normal, hrules ▸ hnormal, rfl⟩

/-- The configuration that is parsed for a draft: the active one, each proxy with the rules of its
edit as they are read back. -/
structure DraftText (y : Yaml) (active : Config) (d : Draft) (data : Bytes) (c : Config) : Prop where
  named : (d.proxies.map ProxyDraft.id).Perm (active.proxies.map Proxy.id)
  decoded : decodeDocument y (decodeConfig y) data Config.zero = .ok c
  config : c = { active with proxies := c.proxies }
  proxies : List.Forall₂ (fun p q => ∃ edit ∈ d.proxies, edit.id = p.id ∧
    Proxy.Reread { p with rules := some edit.rules } q) active.proxies c.proxies

theorem document_text (hy : y.Faithful) (hd : NormalDocument lib host active)
    (h : document lib y host' dir active.config d = .ok e) : ∃ data c, DraftText y active.config d data c ∧
      ∀ host e, document lib y host dir active.config d = .ok e ↔
        parse lib y host data (joinString dir "active.yaml") = .ok e := by
  unfold document at h ⊢
  split_ifs at h with hlength
  cases hedit : editProxies [] d.proxies active.config.proxies with
  | error e =>
    rw [hedit] at h
    cases h
  | ok proxies =>
    obtain ⟨hnodup, -, hknown, rfl⟩ := editProxies_ok [] d.proxies _ _ hd.valid.2.proxyIDs hedit
    have hperm := edits_perm d.proxies _ (not_not.mp hlength) hnodup hknown
    obtain ⟨c, ⟨hc, hreread⟩, hdecode⟩ := decode_encode hy
      { active.config with proxies := active.config.proxies.map (edited d.proxies) }
    rw [List.forall₂_map_left_iff] at hreread
    have hproxies : List.Forall₂ (fun p q => ∃ edit ∈ d.proxies, edit.id = p.id ∧
        Proxy.Reread { p with rules := some edit.rules } q) active.config.proxies c.proxies := by
      apply forall₂_mem_imp _ _ hreread
      intro p hp q hq
      obtain ⟨edit, hmem, hid, hedited⟩ := edited_eq d.proxies p (hperm.mem_iff.mpr (List.mem_map_of_mem hp))
      exact ⟨edit, hmem, hid, hedited ▸ hq⟩
    refine ⟨_, c, ⟨hperm, hdecode, hc, hproxies⟩, ?_⟩
    intro host e
    rw [if_neg hlength]
    simp only
    constructor
    · intro h
      split at h
      · cases h
      · next hparse =>
        cases h
        exact hparse
    · intro h
      rw [h]

theorem DraftText.parsed (hd : NormalDocument lib host active) {data : Bytes} {c : Config}
    (ht : DraftText y active.config d data c) (filename absolute : String) (hname : filename ≠ "")
    (habs : host'.abs filename = some absolute) :
    parse lib y host' data filename = .ok e ↔ Normalized lib host' (dirString absolute) c e := by
  apply parse_rooted lib y host' data filename absolute c e hname habs ht.decoded
  refine forall₂_right _ _ ht.proxies ?_
  rintro p hp q ⟨edit, -, -, rules, rfl, -⟩
  exact (hd.proxies p hp).rooted

/-- An accepted draft names every proxy once and changes nothing but the rules. -/
theorem document_accepted (hy : y.Faithful) (hd : NormalDocument lib host active)
    (hfiles : ∀ f ∈ active.config.tlsFiles, host'.readFile f = host.readFile f)
    (h : document lib y host' dir active.config d = .ok e) : DraftAccepted active d e := by
  obtain ⟨data, c, htext, hparse⟩ := document_text hy hd h
  rw [hparse] at h
  obtain ⟨hname, absolute, habs⟩ := parse_name lib y host' _ _ e h
  have hnormal := (htext.parsed hd _ absolute hname habs).mp h
  have hproxies : List.Forall₂ (Redrawn d.proxies) active.config.proxies e.config.proxies := by
    apply forall₂_mapM _ _ _ _ htext.proxies hnormal.proxies
    rintro p hp q r ⟨edit, hmem, hid, hq⟩ hr
    obtain ⟨rules, hrules, rfl⟩ := normalize_edited hd hfiles _ edit p q r hp hq hr
    exact ⟨edit, hmem, hid, rules, hrules, rfl⟩
  have hconfig : e.config = { active.config with proxies := e.config.proxies } := by
    rw [hnormal.config, htext.config]
  have hdocument := hnormal.document
  have hvalid := (newDocument_some lib _ _ e hdocument).2
  have htls := redrawn_files hproxies
  have hdigests : e.config.digests lib host' = active.config.digests lib host := by
    rw [Config.digests, Config.digests, htls]
    exact addFiles_congr lib host host' ∅ _ hfiles
  have hpart : restartPart active.config = restartPart e.config := by
    have hmap := forall₂_map_eq (fun p : Proxy => { p with rules := none })
      (fun p : Proxy => { p with rules := none }) _ _ hproxies (by
        rintro p q ⟨edit, -, -, rules, -, rfl⟩
        rfl)
    rw [hconfig]
    simp only [restartPart, hmap]
  rw [hdigests] at hdocument
  have hprint := restartFingerprint_eq lib _ _ _ active e hd.document hdocument hpart
  refine ⟨htext.named, hconfig, hproxies, hvalid, ?_⟩
  simp [restartCompatible, documentValid, hd.valid.1, hvalid, hprint]

theorem document_again (hy : y.Faithful) (hd : NormalDocument lib host active) {host'' : Host}
    (hfiles : ∀ f ∈ active.config.tlsFiles, host'.readFile f = host.readFile f)
    (hfiles' : ∀ f ∈ active.config.tlsFiles, host''.readFile f = host.readFile f)
    (habs : (host''.abs (joinString dir "active.yaml")).isSome)
    (h : document lib y host' dir active.config d = .ok e) :
    document lib y host'' dir active.config d = .ok e := by
  have haccepted := document_accepted hy hd hfiles h
  obtain ⟨data, c, htext, hparse⟩ := document_text hy hd h
  rw [hparse] at h ⊢
  obtain ⟨hname, absolute, habs'⟩ := parse_name lib y host' _ _ e h
  obtain ⟨absolute', habs⟩ := Option.isSome_iff_exists.mp habs
  have hnormal := (htext.parsed hd _ absolute hname habs').mp h
  rw [htext.parsed hd _ absolute' hname habs]
  refine { hnormal with proxies := ?_, document := ?_ }
  · rw [← hnormal.proxies]
    apply mapM_congr_mem
    -- the infrastructure of an active proxy is normal on both hosts
    refine forall₂_right _ _ htext.proxies ?_
    rintro p hp q ⟨edit, -, -, rules, rfl, -⟩
    have hp' (f : String) (hf : f ∈ p.tlsFiles) : f ∈ active.config.tlsFiles := List.mem_flatMap.mpr ⟨p, hp, hf⟩
    have hinfra := (hd.proxies p hp).infra host' (dirString absolute) (some rules)
      (fun f hf => hfiles f (hp' f hf))
    have hinfra' := (hd.proxies p hp).infra host'' (dirString absolute') (some rules)
      (fun f hf => hfiles' f (hp' f hf))
    unfold normalizeProxy
    simp only [hinfra, hinfra', Option.bind_some]
  · rw [← hnormal.document, Config.digests, Config.digests, redrawn_files haccepted.proxies]
    congr 1
    rw [addFiles_congr lib host host'' ∅ _ hfiles', addFiles_congr lib host host' ∅ _ hfiles]

end Law

end Managed
end Faultline
