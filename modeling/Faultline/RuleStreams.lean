import Faultline.Engine
import Faultline.Executable
import Faultline.Segments

/-! The generators of the rules. Each is seeded by a hash of the seed of the configuration and of two
identifiers around a zero byte; no identifier of an accepted document has such a byte. -/
namespace Faultline

theorem zero_notMem_bytesOf (s : String) (h : Char.ofNat 0 ∉ s.toList) : 0 ∉ bytesOf s := by
  have hbytes : bytesOf s = s.toList.flatMap String.utf8EncodeChar := by
    rw [← bytesOf_ofList, String.ofList_toList]
  rw [hbytes]
  intro hmem
  obtain ⟨c, hc, hzero⟩ := List.mem_flatMap.mp hmem
  by_cases hascii : c.toNat < 128
  · rw [utf8EncodeChar_ascii c hascii, List.mem_singleton] at hzero
    have hnat : c.toNat = 0 := by
      have hval := congrArg UInt8.toNat hzero
      rw [UInt8.toNat_ofNat'] at hval
      change 0 = c.toNat % 2^8 at hval
      omega
    have heq : c = Char.ofNat 0 := by
      rw [← hnat, Char.ofNat_toNat]
    exact h (heq ▸ hc)
  · have hbig := le_of_mem_utf8EncodeChar c (by omega) 0 hzero
    exact absurd hbig (by decide)

theorem identifier_bytes (s : String) (h : identifier s = true) : 0 ∉ bytesOf s := by
  apply zero_notMem_bytesOf
  intro hmem
  simp only [identifier, Bool.and_eq_true, List.all_eq_true] at h
  exact absurd (h.2 _ hmem) (by decide)

theorem validateProxy_identifiers (lib : Library) (host : Host) (base path : String)
    (listeners : List String) (digests digests' : Digests) (p p' : Proxy)
    (h : validateProxy lib host base path listeners digests p = .ok (p', digests')) :
    identifier p'.id = true ∧ ∀ r ∈ p'.ruleList, identifier r.id = true := by
  have hkeeps := validateProxy_keeps lib host base path listeners digests digests' p p' h
  have hchecked := validateProxy_checked lib host base path listeners digests digests' p p' h
  refine ⟨?_, ?_⟩
  · simp only [validateProxy, validateProtocols, bind_eq_ok, reject_eq_ok, exists_const] at h
    obtain ⟨⟨hid, -⟩, -⟩ := h
    rw [hkeeps.1]
    simpa using hid
  · intro r hr
    obtain ⟨r', path', hrule⟩ := hchecked.rules r hr
    have hsame := (validateProxyRule_idem p'.protocol r' r path' path' hrule).2.2.1
    simp only [validateProxyRule, bind_eq_ok, reject_eq_ok, exists_const] at hrule
    obtain ⟨hid, -⟩ := hrule
    rw [hsame]
    simpa using hid

theorem accepted_identifiers {lib : Library} {y : Yaml} {host : Host} {d : Document}
    (h : Accepted lib y host d) :
    ∀ p ∈ d.config.proxies, identifier p.id = true ∧ ∀ r ∈ p.ruleList, identifier r.id = true := by
  obtain ⟨c, sources, root, hfinish⟩ := h.finished
  intro p hp
  obtain ⟨q, base, path, listeners, digests, digests', hproxy⟩ := finish_proxies lib host c sources root d hfinish p hp
  exact validateProxy_identifiers lib host base path listeners digests digests' q p hproxy

/-- The seed of a rule can be taken apart: eight bytes, an identifier up to the first zero, and the
other identifier. -/
theorem ruleSeed_inj (seed seed' : UInt64) (proxyID proxyID' ruleID ruleID' : String)
    (hid : 0 ∉ bytesOf proxyID) (hid' : 0 ∉ bytesOf proxyID')
    (h : ruleSeed seed proxyID ruleID = ruleSeed seed' proxyID' ruleID') :
    seed = seed' ∧ proxyID = proxyID' ∧ ruleID = ruleID' := by
  unfold ruleSeed at h
  rw [List.append_assoc, List.append_assoc] at h
  obtain ⟨hseed, hrest⟩ := List.append_inj h (by rw [length_putLE, length_putLE])
  have hcut := cut_append 0 (bytesOf proxyID) (bytesOf ruleID) hid
  rw [hrest, cut_append 0 (bytesOf proxyID') (bytesOf ruleID') hid'] at hcut
  obtain ⟨hproxy, hrule⟩ := Prod.mk.inj hcut
  refine ⟨?_, bytesOf_injective hproxy.symm, bytesOf_injective (Option.some.inj hrule).symm⟩
  apply UInt64.toNat_inj.mp
  have hnat := congrArg leNat hseed
  have hlt := seed.toNat_lt
  have hlt' := seed'.toNat_lt
  rw [leNat_putLE, leNat_putLE] at hnat
  omega

/-- Two rules of accepted documents have the same seed if they belong to the same seed of the
configuration, the same proxy and the same rule, and only then. -/
theorem rule_seeds_injective {lib lib' : Library} {y y' : Yaml} {host host' : Host} (d d' : Document)
    (hd : Accepted lib y host d) (hd' : Accepted lib' y' host' d') (p p' : Proxy)
    (hp : p ∈ d.config.proxies) (hp' : p' ∈ d'.config.proxies) (r r' : Rule) :
    ruleSeed d.config.seed p.id r.id = ruleSeed d'.config.seed p'.id r'.id ↔
      d.config.seed = d'.config.seed ∧ p.id = p'.id ∧ r.id = r'.id := by
  constructor
  · have hid := identifier_bytes p.id (accepted_identifiers hd p hp).1
    have hid' := identifier_bytes p'.id (accepted_identifiers hd' p' hp').1
    exact ruleSeed_inj _ _ _ _ _ _ hid hid'
  · rintro ⟨hseed, hproxy, hrule⟩
    rw [hseed, hproxy, hrule]

theorem rule_seeds_injective_sample : ∃ d, Accepted standardLibrary sampleYaml sampleHost d ∧
    ∃ p ∈ d.config.proxies, p.id = "api" ∧ ∀ r r' : Rule, ruleSeed d.config.seed p.id r.id =
      ruleSeed d.config.seed p.id r'.id ↔ d.config.seed = d.config.seed ∧ p.id = p.id ∧ r.id = r'.id := by
  obtain ⟨d, hparse, hconfig⟩ := sample_accepted
  have hd : Accepted standardLibrary sampleYaml sampleHost d := Or.inl ⟨_, _, hparse⟩
  have hp : sampleProxy sampleRules ∈ d.config.proxies := by
    rw [hconfig]
    exact List.mem_singleton.mpr rfl
  exact ⟨d, hd, _, hp, rfl, rule_seeds_injective d d hd hd _ _ hp hp⟩

end Faultline
