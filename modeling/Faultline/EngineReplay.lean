import Faultline.EngineLaw

/-! Replay: the decisions of a rule with a probability depend on the seed, the two
IDs and the probability, and on how many calls the rule has owned before. -/
namespace Faultline

/-- A rule draws one number for each owned call, unless its probability is 0 or 1. -/
theorem rounds_draws (lib : Library) (seed : UInt64) (proxyID : String) (r : Rule)
    (hn : r.select.nth = none) (he : r.select.every = none) (n : ℕ) :
    (rounds lib n (newRuleState lib seed proxyID r)).draws =
      if r.select.chance.eq Float64.zero ∨ r.select.chance.eq Float64.one then 0 else n := by
  induction n with
  | zero => simp [rounds, newRuleState]
  | succ n ih =>
    have hrule : (rounds lib n (newRuleState lib seed proxyID r)).rule = r := by
      rw [rounds_rule]
      rfl
    rw [rounds_succ]
    simp only [attempt, selectAttempt, hrule, hn, he]
    by_cases hz : r.select.chance.eq Float64.zero = true
    · simp only [hz, true_or, if_true] at ih ⊢
      exact ih
    by_cases ho : r.select.chance.eq Float64.one = true
    · simp only [ho, or_true, if_true] at ih
      simp only [hz, ho, or_true, if_true]
      exact ih
    · rw [if_neg (not_or.mpr ⟨hz, ho⟩)] at ih ⊢
      rw [if_neg hz, if_neg ho, ih]

theorem selectedAt_replay (lib : Library) (seed : UInt64) (proxyID : String) (r r' : Rule)
    (hid : r.id = r'.id) (hn : r.select.nth = none) (he : r.select.every = none)
    (hn' : r'.select.nth = none) (he' : r'.select.every = none)
    (hp : r.select.probability = r'.select.probability) (n : ℕ) :
    selectedAt lib (newRuleState lib seed proxyID r) n =
      selectedAt lib (newRuleState lib seed proxyID r') n := by
  have hchance : r.select.chance = r'.select.chance := by rw [Selector.chance, hp, Selector.chance]
  have hseeds : (newRuleState lib seed proxyID r).seeds = (newRuleState lib seed proxyID r').seeds := by
    simp only [newRuleState, hid]
  rw [selectedAt_chance lib seed proxyID r hn he, selectedAt_chance lib seed proxyID r' hn' he',
    rounds_draws lib seed proxyID r hn he, rounds_draws lib seed proxyID r' hn' he', hchance, hseeds]

/-- Two engines of valid documents with one seed, and in each a rule with the same
proxy ID, rule ID and probability: in any two histories, calls that the rule owns
after equally many owned calls are both selected or both not. -/
theorem replay_isolation (lib : Library) (host host' : Host) (c c' : Config)
    (sources sources' : List ProxySource) (root root' : String) (d d' : Document) (e e' : Engine)
    (hd : finish lib host c sources root = .ok d) (hd' : finish lib host' c' sources' root' = .ok d')
    (he : Engine.new lib (some d) = some e) (he' : Engine.new lib (some d') = some e')
    (hseed : d.config.seed = d'.config.seed) (p p' : Proxy) (r r' : Rule) (x : Float64)
    (hr : r ∈ p.ruleList) (hr' : r' ∈ p'.ruleList)
    (hpid : p.id = p'.id) (hrid : r.id = r'.id) (hx : r.select.probability = some x)
    (hx' : r'.select.probability = some x) (calls calls' : List Call) (i i' : ℕ) (call call' : Call)
    (hi : calls[i]? = some call) (hi' : calls'[i']? = some call')
    (howns : Owns d.config call p r) (howns' : Owns d'.config call' p' r')
    (hcount : owned (calls.take i) p r = owned (calls'.take i') p' r') :
    ∃ dec dec' : Decision, (runCalls lib e calls).1[i]? = some (.ok dec) ∧
      (runCalls lib e' calls').1[i']? = some (.ok dec') ∧ dec.selected = dec'.selected := by
  obtain ⟨hvalid, hv⟩ := finish_valid lib host c sources root d hd
  obtain ⟨hvalid', hv'⟩ := finish_valid lib host' c' sources' root' d' hd'
  simp only [Engine.new, hvalid, hvalid', if_true, Option.some.injEq] at he he'
  subst he he'
  obtain ⟨hn, hev⟩ := (hv.selectors p howns.2.1 r hr).of_probability x hx
  obtain ⟨hn', hev'⟩ := (hv'.selectors p' howns'.2.1 r' hr').of_probability x hx'
  have hres := runCalls_getElem? lib d.config hv calls i call hi
  have hres' := runCalls_getElem? lib d'.config hv' calls' i' call' hi'
  rw [result_of_owns lib d.config hv _ call p r howns] at hres
  rw [result_of_owns lib d'.config hv' _ call' p' r' howns'] at hres'
  refine ⟨_, _, hres, hres', ?_⟩
  change selectedAt lib (newRuleState lib d.config.seed p.id r) (owned (calls.take i) p r) =
    selectedAt lib (newRuleState lib d'.config.seed p'.id r') (owned (calls'.take i') p' r')
  rw [hseed, hpid, hcount]
  exact selectedAt_replay lib d'.config.seed p'.id r r' hrid hn hev hn' hev' (hx.trans hx'.symm) _

def halfRule : Rule := sampleRule "half" ⟨some ⟨0x3FE0000000000000⟩, none, none⟩

def postRule : Rule :=
  { sampleRule "post" ⟨none, none, some 2⟩ with
    matcher := { Matcher.zero with method := "POST", headers := some ∅ } }

def postCall : Call := { sampleCall with metadata := ⟨bytesOf "POST", [], bytesOf "/", []⟩ }

/-- The first call of `halfRule`, alone and behind a rule that takes the call before it. -/
theorem replay_isolation_first : ∃ d d' e e' dec dec',
    sampleFinish [halfRule] = .ok d ∧ sampleFinish [postRule, halfRule] = .ok d' ∧
      Engine.new standardLibrary (some d) = some e ∧
      Engine.new standardLibrary (some d') = some e' ∧
      (runCalls standardLibrary e [sampleCall]).1[0]? = some (.ok dec) ∧
      (runCalls standardLibrary e' [postCall, { sampleCall with enabled := false }, sampleCall]).1[2]? =
        some (.ok dec') ∧
      dec.selected = dec'.selected := by
  obtain ⟨d, hd, hc⟩ := sampleFinish_ok [halfRule] (by decide +kernel)
  obtain ⟨d', hd', hc'⟩ := sampleFinish_ok [postRule, halfRule] (by decide +kernel)
  have hvalid := (finish_valid _ _ _ _ _ d hd).1
  have hvalid' := (finish_valid _ _ _ _ _ d' hd').1
  have he : Engine.new standardLibrary (some d) = some ⟨engineProxies standardLibrary d.config⟩ := by
    simp [Engine.new, hvalid]
  have he' : Engine.new standardLibrary (some d') = some ⟨engineProxies standardLibrary d'.config⟩ := by
    simp [Engine.new, hvalid']
  have howns : Owns d.config sampleCall (sampleProxy [halfRule]) halfRule := by
    rw [hc]
    exact (ownedBy_iff_owns _ _ _ (List.mem_singleton_self _) _).mp (by decide +kernel)
  have howns' : Owns d'.config sampleCall (sampleProxy [postRule, halfRule]) halfRule := by
    rw [hc']
    exact (ownedBy_iff_owns _ _ _ (List.mem_singleton_self _) _).mp (by decide +kernel)
  obtain ⟨dec, dec', hdec, hdec', hsel⟩ := replay_isolation _ _ _ _ _ _ _ _ _ d d' _ _ hd hd' he he'
    (by rw [hc, hc']; rfl) (sampleProxy [halfRule]) (sampleProxy [postRule, halfRule]) halfRule halfRule
    ⟨0x3FE0000000000000⟩ (by decide) (by decide) rfl rfl rfl rfl [sampleCall]
    [postCall, { sampleCall with enabled := false }, sampleCall] 0 2 sampleCall sampleCall rfl rfl
    howns howns' (by decide +kernel)
  exact ⟨d, d', _, _, dec, dec', hd, hd', he, he', hdec, hdec', hsel⟩

end Faultline
