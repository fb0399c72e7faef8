import Faultline.ConfigLoad
import Faultline.ConfigRules
import Faultline.Standard

/-! What `finish` guarantees of every document: unique IDs and valid selectors. -/
namespace Faultline

structure ConfigValid (c : Config) : Prop where
  proxyIDs : (c.proxies.map Proxy.id).Nodup
  ruleIDs : ∀ p ∈ c.proxies, (p.ruleList.map Rule.id).Nodup
  named : ∀ p ∈ c.proxies, ∀ r ∈ p.ruleList, r.id ≠ ""
  selectors : ∀ p ∈ c.proxies, ∀ r ∈ p.ruleList, SelectorValid r.select

theorem lookup_eq_none {β : Type} (l : List (String × β)) (k : String) (h : l.lookup k = none) :
    k ∉ l.map (·.1) := by
  intro hmem
  obtain ⟨e, he, rfl⟩ := List.mem_map.mp hmem
  have hne := List.lookup_eq_none_iff.mp h e he
  simp at hne

theorem uniqueRules_ok (src : ProxySource) (j : ℕ) (seen : List (String × ℕ)) (rules : List Rule)
    (h : uniqueRules src j seen rules = .ok ()) :
    (rules.map Rule.id).Nodup ∧ ∀ id ∈ rules.map Rule.id, id ∉ seen.map (·.1) := by
  induction rules generalizing j seen with
  | nil => simp
  | cons r rules ih =>
    unfold uniqueRules at h
    split at h
    · cases h
    · rename_i hnone
      obtain ⟨hnodup, hseen⟩ := ih (j+1) ((r.id, j) :: seen) h
      refine ⟨List.nodup_cons.mpr ⟨fun hmem => ?_, hnodup⟩, ?_⟩
      · exact hseen r.id hmem (by simp)
      · refine List.forall_mem_cons.mpr ⟨lookup_eq_none seen r.id hnone, fun id hid hmem => ?_⟩
        exact hseen id hid (List.mem_cons_of_mem _ hmem)

theorem resolveProxies_ok (seen : List (String × ProxySource)) (ps : List (Proxy × ProxySource))
    (proxies : List Proxy) (h : resolveProxies seen ps = .ok proxies) :
    (proxies.map Proxy.id).Nodup ∧ (∀ id ∈ proxies.map Proxy.id, id ∉ seen.map (·.1)) ∧
      ∀ p ∈ proxies, (p.ruleList.map Rule.id).Nodup := by
  induction ps generalizing seen proxies with
  | nil =>
    cases h
    simp
  | cons q ps ih =>
    obtain ⟨p, src⟩ := q
    unfold resolveProxies at h
    split at h
    · cases h
    · rename_i hnone
      simp only [bind_eq_ok, pure_eq_ok] at h
      obtain ⟨u, hrules, rest, hrest, rfl⟩ := h
      obtain ⟨hnodup, hseen, hruleIDs⟩ := ih ((p.id, src) :: seen) rest hrest
      refine ⟨List.nodup_cons.mpr ⟨fun hmem => ?_, hnodup⟩, ?_, ?_⟩
      · exact hseen p.id hmem (by simp)
      · refine List.forall_mem_cons.mpr ⟨lookup_eq_none seen p.id hnone, fun id hid hmem => ?_⟩
        exact hseen id hid (List.mem_cons_of_mem _ hmem)
      · exact List.forall_mem_cons.mpr ⟨(uniqueRules_ok src 0 [] p.ruleList hrules).1, hruleIDs⟩

theorem validateUpstream_keeps (lib : Library) (host : Host) (base path : String) (p p' : Proxy)
    (digests digests' : Digests) (h : validateUpstream lib host base path p digests = .ok (p', digests')) :
    ∃ upstream tls upstreamTLS,
      p' = { p with upstream := upstream, tls := tls, upstreamTLS := upstreamTLS } := by
  unfold validateUpstream at h
  split_ifs at h
  · simp only [bind_eq_ok, reject_eq_ok, exists_const, pure_eq_ok] at h
    obtain ⟨upstream, -, -, hp⟩ := h
    cases hp
    exact ⟨upstream, p.tls, p.upstreamTLS, rfl⟩
  · simp only [validateTLS, bind_eq_ok, reject_eq_ok, exists_const, pure_eq_ok] at h
    obtain ⟨upstream, -, -, -, ⟨tls, _⟩, -, ⟨upstreamTLS, _⟩, -, hp⟩ := h
    cases hp
    exact ⟨upstream, tls, upstreamTLS, rfl⟩

theorem validateProxy_keeps (lib : Library) (host : Host) (base path : String)
    (listeners : List String) (digests digests' : Digests) (p p' : Proxy)
    (h : validateProxy lib host base path listeners digests p = .ok (p', digests')) :
    p'.id = p.id ∧ p'.ruleList.map Rule.id = p.ruleList.map Rule.id ∧
      ∀ r ∈ p'.ruleList, SelectorValid r.select ∧ r.id ≠ "" := by
  simp only [validateProxy, bind_eq_ok, reject_eq_ok, exists_const, pure_eq_ok] at h
  obtain ⟨u, -, listen, -, -, ⟨q, _⟩, hq, rules, hrules, hp⟩ := h
  cases hp
  obtain ⟨upstream, tls, upstreamTLS, rfl⟩ := validateUpstream_keeps lib host base path _ _ _ _ hq
  obtain ⟨-, hsel, hids, -⟩ := validateRules_idem _ _ path _ 0 _ _ hrules
  exact ⟨rfl, hids, hsel⟩

theorem validateProxies_keeps (lib : Library) (host : Host) (base : String) (i : ℕ)
    (listeners : List String) (digests digests' : Digests) (ps ps' : List Proxy)
    (h : validateProxies lib host base i listeners digests ps = .ok (ps', digests')) :
    ps'.map Proxy.id = ps.map Proxy.id ∧
      ps'.map (fun p => p.ruleList.map Rule.id) = ps.map (fun p => p.ruleList.map Rule.id) ∧
      ∀ p ∈ ps', ∀ r ∈ p.ruleList, SelectorValid r.select ∧ r.id ≠ "" := by
  induction ps generalizing i listeners digests ps' with
  | nil =>
    cases h
    simp
  | cons p ps ih =>
    simp only [validateProxies, bind_eq_ok, pure_eq_ok] at h
    obtain ⟨⟨p', _⟩, hp, ⟨rest, _⟩, hrest, heq⟩ := h
    cases heq
    obtain ⟨hid, hids, hsel⟩ := validateProxy_keeps lib host base _ _ _ _ p p' hp
    obtain ⟨hid', hids', hsel'⟩ := ih _ _ _ rest hrest
    refine ⟨?_, ?_, List.forall_mem_cons.mpr ⟨hsel, hsel'⟩⟩
    · simp only [List.map_cons, hid, hid']
    · simp only [List.map_cons, hids, hids']

/-- Every document that `finish` returns, hence every one of `Parse` and `Load`, is
valid and its configuration has unique IDs and valid selectors. -/
theorem finish_valid (lib : Library) (host : Host) (c : Config) (sources : List ProxySource)
    (root : String) (d : Document) (h : finish lib host c sources root = .ok d) :
    d.valid = true ∧ ConfigValid d.config := by
  unfold finish at h
  split at h
  · cases h
  · rename_i proxies hresolve
    split at h
    · cases h
    · rename_i c' digests hvalidate
      split at h
      · cases h
      · rename_i d' hdoc
        cases h
        obtain ⟨hconfig, hvalid⟩ := newDocument_some lib c' digests d hdoc
        simp only [validate, bind_eq_ok, reject_eq_ok, exists_const, pure_eq_ok] at hvalidate
        obtain ⟨-, -, -, -, ⟨ps, _⟩, hps, hc⟩ := hvalidate
        cases hc
        obtain ⟨hnodup, -, hruleIDs⟩ := resolveProxies_ok [] _ proxies hresolve
        obtain ⟨hid, hids, hsel⟩ := validateProxies_keeps lib host _ 0 [] ∅ _ proxies ps hps
        rw [hconfig]
        refine ⟨hvalid, ⟨by rw [hid]; exact hnodup, fun p hp => ?_,
          fun p hp r hr => (hsel p hp r hr).2, fun p hp r hr => (hsel p hp r hr).1⟩⟩
        -- the rule IDs of a validated proxy are those of one of the resolved proxies
        have hmem : p.ruleList.map Rule.id ∈ proxies.map (fun p => p.ruleList.map Rule.id) := by
          rw [← hids]
          exact List.mem_map_of_mem hp
        obtain ⟨q, hq, heq⟩ := List.mem_map.mp hmem
        rw [← heq]
        exact hruleIDs q hq

def sampleHost : Host where
  readFile _ := none
  stat _ := none
  glob _ := none
  getwd := some "/srv"
  getwd_rooted := by
    intro wd h
    cases h
    decide

def sampleRule (id : String) (select : Selector) : Rule :=
  { Rule.zero with
    id := id
    enabled := true
    matcher := { Matcher.zero with headers := some ∅ }
    select := select
    fault := { Fault.zero with
      phase := "before_upstream_request"
      action := "delay"
      duration := some 1000000 } }

def sampleProxy (rules : List Rule) : Proxy :=
  { Proxy.zero with
    id := "api"
    protocol := "http1"
    upstreamProtocol := "http1"
    listen := "127.0.0.1:8080"
    upstream := "http://127.0.0.1:9000"
    rules := some rules }

def sampleConfig (rules : List Rule) : Config :=
  { Config.zero with
    apiVersion := "faultline/v1alpha1"
    seed := 42
    proxies := [sampleProxy rules] }

def sampleFinish (rules : List Rule) : Except LoadError Document :=
  finish standardLibrary sampleHost (sampleConfig rules) (proxySources "/etc/faultline.yaml" 1)
    "/etc/faultline.yaml"

theorem sampleFinish_ok (rules : List Rule)
    (h : (sampleFinish rules).toOption.map (·.config) = some (sampleConfig rules)) :
    ∃ d, sampleFinish rules = .ok d ∧ d.config = sampleConfig rules := by
  cases hf : sampleFinish rules with
  | error e =>
    rw [hf] at h
    cases h
  | ok d =>
    rw [hf] at h
    exact ⟨d, rfl, Option.some.inj h⟩

end Faultline
