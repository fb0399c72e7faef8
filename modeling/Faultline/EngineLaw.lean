import Faultline.EngineRuns

/-! The law of a history of `Decide` calls: who owns a call, which number it gets,
whether it is selected, and what the counters say in the end. -/
namespace Faultline

/-- The segments of a path pattern against those of a path: a parameter matches
any segment that is not empty, every other segment itself only. -/
def PatternHolds (pattern path : Bytes) : Prop :=
  List.Forall₂ (fun want got => if want.head? = some 58 then got ≠ [] else want = got)
    (pattern.splitOn 47) (path.splitOn 47)

/-- What a matcher asks of a request: the empty text asks for nothing, the path is
compared without its query, and every header of the matcher is among those of the
request under a name that folds to its own, with exactly its value. -/
structure MatcherHolds (m : Matcher) (metadata : Metadata) : Prop where
  service : m.service ≠ "" → bytesOf m.service = metadata.service
  method : m.method ≠ "" → bytesOf m.method = metadata.method
  path : m.path ≠ "" → bytesOf m.path = (cut 63 metadata.path).1
  pattern : m.pathPattern ≠ "" → PatternHolds (bytesOf m.pathPattern) (cut 63 metadata.path).1
  headers : ∀ name value, (m.headers.getD ∅).get? name = some value →
    ∃ h ∈ metadata.headers, equalFold (bytesOf name) h.1 = true ∧ bytesOf value ∈ h.2

/-- The rule is the first one of the call's proxy, in declaration order, that is
enabled and whose matcher holds. -/
def Owns (c : Config) (call : Call) (p : Proxy) (r : Rule) : Prop :=
  call.enabled = true ∧ p ∈ c.proxies ∧ p.id = call.proxyID ∧
    ∃ before after, p.ruleList = before ++ r :: after ∧
      (r.enabled = true ∧ MatcherHolds r.matcher call.metadata) ∧
      ∀ q ∈ before, ¬ (q.enabled = true ∧ MatcherHolds q.matcher call.metadata)

theorem segmentsMatch_iff (pattern path : List Bytes) : segmentsMatch pattern path = true ↔
    List.Forall₂ (fun want got => if want.head? = some 58 then got ≠ [] else want = got)
      pattern path := by
  induction pattern generalizing path with
  | nil => cases path <;> simp [segmentsMatch]
  | cons want pattern ih =>
    cases path with
    | nil => simp [segmentsMatch]
    | cons got path =>
      rw [List.forall₂_cons, ← ih path, segmentsMatch, Bool.and_eq_true]
      refine and_congr_left' ?_
      split_ifs <;> simp

theorem hasHeader_iff (name value : String) (headers : List (Bytes × List Bytes)) :
    hasHeader name value headers = true ↔
      ∃ h ∈ headers, equalFold (bytesOf name) h.1 = true ∧ bytesOf value ∈ h.2 := by
  simp [hasHeader]

theorem matcherMatches_iff (m : Matcher) (metadata : Metadata) :
    matcherMatches m metadata = true ↔ MatcherHolds m metadata := by
  have hheaders : (m.headers.getD ∅).entries.all (fun e => hasHeader e.1 e.2 metadata.headers) = true ↔
      ∀ name value, (m.headers.getD ∅).get? name = some value →
        ∃ h ∈ metadata.headers, equalFold (bytesOf name) h.1 = true ∧ bytesOf value ∈ h.2 := by
    simp only [List.all_eq_true, hasHeader_iff, Prod.forall, OrdMap.get?_eq_some_iff]
  have hpattern := segmentsMatch_iff ((bytesOf m.pathPattern).splitOn 47)
    ((cut 63 metadata.path).1.splitOn 47)
  unfold matcherMatches
  constructor
  · intro h
    simp only [ite_eq_iff, Bool.false_eq_true, and_false, false_or, not_or, not_and,
      Decidable.not_not] at h
    obtain ⟨hservice, ⟨hmethod, hpath⟩, hpat, hall⟩ := h
    exact ⟨hservice, hmethod, hpath, fun hne => hpattern.mp (hpat hne), hheaders.mp hall⟩
  · rintro ⟨hservice, hmethod, hpath, hpat, hhead⟩
    simp only [ite_eq_iff, Bool.false_eq_true, and_false, false_or, not_or, not_and,
      Decidable.not_not]
    exact ⟨hservice, ⟨hmethod, hpath⟩, fun hne => hpattern.mpr (hpat hne), hheaders.mpr hhead⟩

theorem applicable_iff (metadata : Metadata) (r : Rule) :
    applicable metadata r = true ↔ r.enabled = true ∧ MatcherHolds r.matcher metadata := by
  rw [applicable, Bool.and_eq_true, matcherMatches_iff]

theorem ownedBy_iff_owns (c : Config) (call : Call) (p : Proxy) (hp : p ∈ c.proxies) (r : Rule) :
    ownedBy p r call = true ↔ Owns c call p r := by
  rw [ownedBy_iff, List.find?_eq_some_iff_append, Owns]
  constructor
  · rintro ⟨hen, hid, happ, before, after, hsplit, hbefore⟩
    refine ⟨hen, hp, hid.symm, before, after, hsplit, (applicable_iff _ r).mp happ, fun q hq hh => ?_⟩
    have hfalse := hbefore q hq
    rw [(applicable_iff call.metadata q).mpr hh] at hfalse
    cases hfalse
  · rintro ⟨hen, -, hid, before, after, hsplit, happ, hbefore⟩
    refine ⟨hen, hid.symm, (applicable_iff _ r).mpr happ, before, after, hsplit, fun q hq => ?_⟩
    have hnot := mt (applicable_iff call.metadata q).mp (hbefore q hq)
    simpa using hnot

theorem owns_unique (c : Config) (hv : ConfigValid c) (call : Call) (p q : Proxy) (r s : Rule)
    (h : Owns c call p r) (h' : Owns c call q s) : p = q ∧ r = s := by
  have hpq : p = q := List.inj_on_of_nodup_map hv.proxyIDs h.2.1 h'.2.1
    (h.2.2.1.trans h'.2.2.1.symm)
  subst hpq
  have hr := ((ownedBy_iff p r call).mp ((ownedBy_iff_owns c call p h.2.1 r).mpr h)).2.2
  have hs := ((ownedBy_iff p s call).mp ((ownedBy_iff_owns c call p h.2.1 s).mpr h')).2.2
  exact ⟨rfl, Option.some.inj (hr.symm.trans hs)⟩

theorem rounds_sequence (lib : Library) (seed : UInt64) (proxyID : String) (r : Rule) (n : ℕ) :
    (rounds lib n (newRuleState lib seed proxyID r)).counters.eligible + 1 = UInt64.ofNat (n+1) := by
  have hzero : (newRuleState lib seed proxyID r).counters.eligible = 0 := rfl
  rw [rounds_eligible, hzero, UInt64.zero_add, UInt64.ofNat_add]
  rfl

theorem selectedAt_nth (lib : Library) (seed : UInt64) (proxyID : String) (r : Rule) (k : UInt64)
    (h : r.select.nth = some k) (n : ℕ) :
    selectedAt lib (newRuleState lib seed proxyID r) n = decide (UInt64.ofNat (n+1) = k) := by
  have hrule : (rounds lib n (newRuleState lib seed proxyID r)).rule = r := by
    rw [rounds_rule]
    rfl
  simp only [selectedAt, attempt, selectAttempt, hrule, h, rounds_sequence]

theorem selectedAt_every (lib : Library) (seed : UInt64) (proxyID : String) (r : Rule) (k : UInt64)
    (hn : r.select.nth = none) (h : r.select.every = some k) (n : ℕ) :
    selectedAt lib (newRuleState lib seed proxyID r) n = decide (UInt64.ofNat (n+1) % k = 0) := by
  have hrule : (rounds lib n (newRuleState lib seed proxyID r)).rule = r := by
    rw [rounds_rule]
    rfl
  simp only [selectedAt, attempt, selectAttempt, hrule, hn, h, rounds_sequence]

theorem selectedAt_chance (lib : Library) (seed : UInt64) (proxyID : String) (r : Rule)
    (hn : r.select.nth = none) (he : r.select.every = none) (n : ℕ) :
    selectedAt lib (newRuleState lib seed proxyID r) n =
      if r.select.chance.eq Float64.zero then false
      else if r.select.chance.eq Float64.one then true
      else (lib.pcg (newRuleState lib seed proxyID r).seeds.1 (newRuleState lib seed proxyID r).seeds.2
        (rounds lib n (newRuleState lib seed proxyID r)).draws).lt r.select.chance := by
  have hrule : (rounds lib n (newRuleState lib seed proxyID r)).rule = r := by
    rw [rounds_rule]
    rfl
  simp only [selectedAt, attempt, selectAttempt, hrule, hn, he, rounds_seeds]
  split_ifs <;> rfl

theorem runCalls_getElem? (lib : Library) (c : Config) (hv : ConfigValid c) (calls : List Call)
    (i : ℕ) (call : Call) (hi : calls[i]? = some call) :
    (runCalls lib ⟨engineProxies lib c⟩ calls).1[i]? =
      some (resultAt lib c (owned (calls.take i)) call) := by
  have hstep := (decide_tracks lib c hv _ _ call (runCalls_tracks lib c hv (calls.take i))).1
  rw [← hstep]
  exact run_getElem? _ _ calls i call hi

def Engine.ruleState (e : Engine) (proxyID ruleID : String) : Option RuleState :=
  ((e.proxies.get? proxyID).getD []).find? (fun r => r.rule.id = ruleID)

theorem ruleState_tracks (lib : Library) (c : Config) (hv : ConfigValid c) (n : Proxy → Rule → ℕ)
    (e : Engine) (he : Tracks lib c n e) (p : Proxy) (hp : p ∈ c.proxies) (r : Rule)
    (hr : r ∈ p.ruleList) :
    e.ruleState p.id r.id = some (rounds lib (n p r) (newRuleState lib c.seed p.id r)) := by
  have hfind : p.ruleList.find? (fun q => q.id = r.id) = some r := by
    cases hf : p.ruleList.find? (fun q => q.id = r.id) with
    | none =>
      have hnone := List.find?_eq_none.mp hf r hr
      simp at hnone
    | some q =>
      have hq : q.id = r.id := by simpa using List.find?_some hf
      rw [List.inj_on_of_nodup_map (hv.ruleIDs p hp) (List.mem_of_find?_eq_some hf) hr hq]
  rw [Engine.ruleState, he p.id, statesAt, find_id_of_mem c hv p hp]
  simp only [Option.map_some, Option.getD_some, List.find?_map, Option.map_eq_some_iff]
  refine ⟨r, ?_, rfl⟩
  have hpred : ((fun s : RuleState => decide (s.rule.id = r.id)) ∘ fun q =>
      rounds lib (n p q) (newRuleState lib c.seed p.id q)) = fun q => decide (q.id = r.id) := by
    funext q
    simp [newRuleState]
  rw [hpred, hfind]

theorem tracks_unique (lib : Library) (c : Config) (n : Proxy → Rule → ℕ) (e e' : Engine)
    (he : Tracks lib c n e) (he' : Tracks lib c n e') : e = e' := by
  have hp : e.proxies = e'.proxies := OrdMap.ext_get? _ _ (fun k => (he k).trans (he' k).symm)
  cases e
  cases e'
  rw [Engine.mk.injEq]
  exact hp

theorem toNat_ofNat_lt (n : ℕ) (h : n < 2^64) : (UInt64.ofNat n).toNat = n := by
  rw [UInt64.toNat_ofNat']
  exact Nat.mod_eq_of_lt h

theorem mem_decisionsOf (lib : Library) (c : Config) (hv : ConfigValid c) (calls : List Call)
    (p : Proxy) (hp : p ∈ c.proxies) (r : Rule) (hr : r ∈ p.ruleList) (dec : Decision)
    (hdec : dec ∈ decisionsOf p.id r.id (runCalls lib ⟨engineProxies lib c⟩ calls).1) :
    ∃ n < owned calls p r, dec.eligibleSequence = UInt64.ofNat (n+1) ∧
      dec.selected = selectedAt lib (newRuleState lib c.seed p.id r) n := by
  rw [decisionsOf_runCalls lib c hv calls p hp r hr, List.mem_map] at hdec
  obtain ⟨n, hn, rfl⟩ := hdec
  exact ⟨n, List.mem_range.mp hn, rounds_sequence lib c.seed p.id r n, rfl⟩

theorem countP_selected (lib : Library) (c : Config) (hv : ConfigValid c) (calls : List Call)
    (p : Proxy) (hp : p ∈ c.proxies) (r : Rule) (hr : r ∈ p.ruleList) :
    (decisionsOf p.id r.id (runCalls lib ⟨engineProxies lib c⟩ calls).1).countP (·.selected) =
      (List.range (owned calls p r)).countP
        (selectedAt lib (newRuleState lib c.seed p.id r)) := by
  rw [decisionsOf_runCalls lib c hv calls p hp r hr, List.countP_map]
  rfl

theorem countP_multiples (N k : ℕ) : (List.range N).countP (fun n => k ∣ n+1) = N / k := by
  rw [← Nat.card_multiples N k, List.countP_eq_length_filter, Finset.card_def, Finset.filter_val,
    Finset.range_val, Multiset.range, Multiset.filter_coe, Multiset.coe_card]

theorem selectedAt_every_iff (lib : Library) (seed : UInt64) (proxyID : String) (r : Rule)
    (k : UInt64) (hn : r.select.nth = none) (h : r.select.every = some k) (n : ℕ)
    (hlt : n+1 < 2^64) :
    selectedAt lib (newRuleState lib seed proxyID r) n = decide (k.toNat ∣ n+1) := by
  have hmod : UInt64.ofNat (n+1) % k = 0 ↔ k.toNat ∣ n+1 := by
    rw [← UInt64.toNat_inj, UInt64.toNat_mod, toNat_ofNat_lt _ hlt, UInt64.toNat_zero,
      Nat.dvd_iff_mod_eq_zero]
  rw [selectedAt_every lib seed proxyID r k hn h n, decide_eq_decide]
  exact hmod

theorem SelectorValid.of_every {s : Selector} (h : SelectorValid s) (k : UInt64)
    (hk : s.every = some k) : s.probability = none ∧ s.nth = none := by
  have hone := h.one
  rw [hk] at hone
  cases hp : s.probability <;> cases hn : s.nth <;> simp [hp, hn] at hone ⊢

theorem SelectorValid.of_probability {s : Selector} (h : SelectorValid s) (p : Float64)
    (hp : s.probability = some p) : s.nth = none ∧ s.every = none := by
  have hone := h.one
  rw [hp] at hone
  cases hn : s.nth <;> cases he : s.every <;> simp [hn, he] at hone ⊢

structure EngineRunLaw (lib : Library) (c : Config) (e : Engine) (calls : List Call) : Prop where
  /-- `ownedBy` and the counts made with it are about owners. -/
  owner : ∀ call, ∀ p ∈ c.proxies, ∀ r, ownedBy p r call = true ↔ Owns c call p r
  /-- No call has two owners. -/
  one_owner : ∀ call p q r s, Owns c call p r → Owns c call q s → p = q ∧ r = s
  /-- An owned call returns a decision of its owner, selected or not. -/
  owned_call : ∀ (i : ℕ) call p r, calls[i]? = some call → Owns c call p r →
    ∃ dec : Decision, (runCalls lib e calls).1[i]? = some (Except.ok dec) ∧ dec.proxyID = p.id ∧ dec.ruleID = r.id ∧
      dec.selector = r.select ∧ dec.fault = r.fault
  /-- Any other call names no rule. -/
  other_call : ∀ (i : ℕ) call, calls[i]? = some call → (∀ p r, ¬ Owns c call p r) →
    (runCalls lib e calls).1[i]? = some (if call.proxyID ∈ c.proxies.map Proxy.id
      then Except.ok (noDecision call.proxyID) else Except.error unknownProxy)
  /-- The numbers handed out for a rule are 1, 2, … up to the number of its calls. -/
  sequences : ∀ p ∈ c.proxies, ∀ r ∈ p.ruleList, owned calls p r < 2^64 →
    (decisionsOf p.id r.id (runCalls lib e calls).1).map (·.eligibleSequence.toNat) =
      List.range' 1 (owned calls p r)
  nth : ∀ p ∈ c.proxies, ∀ r ∈ p.ruleList, ∀ k, r.select.nth = some k →
    ∀ dec ∈ decisionsOf p.id r.id (runCalls lib e calls).1,
      dec.selected = true ↔ dec.eligibleSequence = k
  every : ∀ p ∈ c.proxies, ∀ r ∈ p.ruleList, ∀ k, r.select.every = some k →
    owned calls p r < 2^64 →
    (∀ dec ∈ decisionsOf p.id r.id (runCalls lib e calls).1,
      dec.selected = true ↔ k.toNat ∣ dec.eligibleSequence.toNat) ∧
    (decisionsOf p.id r.id (runCalls lib e calls).1).countP (·.selected) = owned calls p r / k.toNat
  never : ∀ p ∈ c.proxies, ∀ r ∈ p.ruleList, r.select.probability = some Float64.zero →
    ∀ dec ∈ decisionsOf p.id r.id (runCalls lib e calls).1, dec.selected = false
  always : ∀ p ∈ c.proxies, ∀ r ∈ p.ruleList, r.select.probability = some Float64.one →
    ∀ dec ∈ decisionsOf p.id r.id (runCalls lib e calls).1, dec.selected = true
  counters : ∀ p ∈ c.proxies, ∀ r ∈ p.ruleList, owned calls p r < 2^64 →
    ∃ cnt, (runCalls lib e calls).2.counters p.id r.id = some cnt ∧
      cnt.eligible.toNat = owned calls p r ∧
      cnt.selected.toNat =
        (decisionsOf p.id r.id (runCalls lib e calls).1).countP (·.selected)
  /-- A further call changes the state of no rule but its owner. -/
  frame : ∀ call, ∀ p ∈ c.proxies, ∀ r ∈ p.ruleList, ¬ Owns c call p r →
    ((runCalls lib e calls).2.decide lib call.proxyID call.metadata call.enabled).2.ruleState
      p.id r.id = (runCalls lib e calls).2.ruleState p.id r.id
  /-- A further call without an owner changes nothing. -/
  idle : ∀ call, (∀ p r, ¬ Owns c call p r) →
    ((runCalls lib e calls).2.decide lib call.proxyID call.metadata call.enabled).2 =
      (runCalls lib e calls).2

theorem result_of_owns (lib : Library) (c : Config) (hv : ConfigValid c) (n : Proxy → Rule → ℕ)
    (call : Call) (p : Proxy) (r : Rule) (h : Owns c call p r) :
    resultAt lib c n call = .ok (ownedDecision lib p.id
      (rounds lib (n p r) (newRuleState lib c.seed p.id r))) := by
  have hp := h.2.1
  obtain ⟨hen, hid, hfind⟩ := (ownedBy_iff p r call).mp ((ownedBy_iff_owns c call p hp r).mpr h)
  simp only [resultAt, hid, find_id_of_mem c hv p hp, hen, if_true, hfind]

theorem result_of_not_owns (lib : Library) (c : Config) (n : Proxy → Rule → ℕ)
    (call : Call) (h : ∀ p r, ¬ Owns c call p r) :
    resultAt lib c n call = if call.proxyID ∈ c.proxies.map Proxy.id
      then .ok (noDecision call.proxyID) else .error unknownProxy := by
  unfold resultAt
  cases hfind : c.proxies.find? (fun p => p.id = call.proxyID) with
  | none =>
    rw [if_neg]
    intro hmem
    obtain ⟨p, hp, hid⟩ := List.mem_map.mp hmem
    have hnone := List.find?_eq_none.mp hfind p hp
    simp [hid] at hnone
  | some p =>
    obtain ⟨hp, hid⟩ := mem_of_find_id c call.proxyID p hfind
    rw [if_pos (hid ▸ List.mem_map_of_mem hp)]
    by_cases hen : call.enabled = true
    · simp only [hen, if_true]
      cases hown : p.ruleList.find? (applicable call.metadata) with
      | none => rfl
      | some r =>
        have howned := (ownedBy_iff p r call).mpr ⟨hen, hid.symm, hown⟩
        exact absurd ((ownedBy_iff_owns c call p hp r).mp howned) (h p r)
    · simp [hen]

theorem bump_of_not_owns (c : Config) (n : Proxy → Rule → ℕ) (call : Call) (p : Proxy)
    (hp : p ∈ c.proxies) (r : Rule) (h : ¬ Owns c call p r) : bump n call p r = n p r := by
  refine bump_of_not_owned n call p r ?_
  rw [Bool.eq_false_iff]
  exact fun howned => h ((ownedBy_iff_owns c call p hp r).mp howned)

/-- Every history of calls on the engine of a document that `finish` returned, hence
of one that `Parse` or `Load` returned, obeys the law. -/
theorem engine_run_law (lib : Library) (host : Host) (c : Config) (sources : List ProxySource)
    (root : String) (d : Document) (e : Engine) (hd : finish lib host c sources root = .ok d)
    (he : Engine.new lib (some d) = some e) (calls : List Call) :
    EngineRunLaw lib d.config e calls := by
  obtain ⟨hvalid, hv⟩ := finish_valid lib host c sources root d hd
  simp only [Engine.new, hvalid, if_true, Option.some.injEq] at he
  subst he
  have htracks := runCalls_tracks lib d.config hv calls
  refine ⟨fun call p hp r => ownedBy_iff_owns _ call p hp r,
    fun call p q r s h h' => owns_unique _ hv call p q r s h h', ?_, ?_, ?_, ?_, ?_, ?_, ?_, ?_, ?_, ?_⟩
  · intro i call p r hi howns
    refine ⟨ownedDecision lib p.id (rounds lib (owned (calls.take i) p r)
      (newRuleState lib d.config.seed p.id r)), ?_, rfl, ?_, ?_, ?_⟩
    · rw [runCalls_getElem? lib d.config hv calls i call hi, result_of_owns lib d.config hv _ call p r howns]
    · simp [ownedDecision, newRuleState]
    · simp [ownedDecision, newRuleState]
    · simp [ownedDecision, newRuleState]
  · intro i call hi hnone
    rw [runCalls_getElem? lib d.config hv calls i call hi, result_of_not_owns lib d.config _ call hnone]
  · intro p hp r hr hN
    rw [decisionsOf_runCalls lib d.config hv calls p hp r hr, List.map_map, List.range'_eq_map_range]
    refine List.map_congr_left (fun n hn => ?_)
    change ((rounds lib n _).counters.eligible + 1).toNat = 1 + n
    rw [rounds_sequence, toNat_ofNat_lt _ (by have := List.mem_range.mp hn; omega)]
    omega
  · intro p hp r hr k hk dec hdec
    obtain ⟨n, -, hseq, hsel⟩ := mem_decisionsOf lib d.config hv calls p hp r hr dec hdec
    rw [hsel, selectedAt_nth lib _ _ r k hk, hseq, decide_eq_true_eq]
  · intro p hp r hr k hk hN
    have hnth := ((hv.selectors p hp r hr).of_every k hk).2
    have hlaw (n : ℕ) (hn : n < owned calls p r) :=
      selectedAt_every_iff lib d.config.seed p.id r k hnth hk n (by omega)
    constructor
    · intro dec hdec
      obtain ⟨n, hn, hseq, hsel⟩ := mem_decisionsOf lib d.config hv calls p hp r hr dec hdec
      rw [hsel, hlaw n hn, hseq, toNat_ofNat_lt _ (by omega), decide_eq_true_eq]
    · rw [countP_selected lib d.config hv calls p hp r hr, ← countP_multiples]
      refine List.countP_congr (fun n hn => ?_)
      rw [hlaw n (List.mem_range.mp hn)]
  · intro p hp r hr hz dec hdec
    obtain ⟨hn, hev⟩ := (hv.selectors p hp r hr).of_probability _ hz
    obtain ⟨n, -, -, hsel⟩ := mem_decisionsOf lib d.config hv calls p hp r hr dec hdec
    have hchance : r.select.chance = Float64.zero := by simp [Selector.chance, hz]
    rw [hsel, selectedAt_chance lib _ _ r hn hev, hchance, if_pos (by decide)]
  · intro p hp r hr ho dec hdec
    obtain ⟨hn, hev⟩ := (hv.selectors p hp r hr).of_probability _ ho
    obtain ⟨n, -, -, hsel⟩ := mem_decisionsOf lib d.config hv calls p hp r hr dec hdec
    have hchance : r.select.chance = Float64.one := by simp [Selector.chance, ho]
    rw [hsel, selectedAt_chance lib _ _ r hn hev, hchance, if_neg (by decide), if_pos (by decide)]
  · intro p hp r hr hN
    have hstate := ruleState_tracks lib d.config hv _ _ htracks p hp r hr
    refine ⟨_, congrArg (Option.map RuleState.counters) hstate, ?_, ?_⟩
    · rw [rounds_eligible]
      change ((0 : UInt64) + UInt64.ofNat (owned calls p r)).toNat = _
      rw [UInt64.zero_add, toNat_ofNat_lt _ hN]
    · rw [rounds_selected, countP_selected lib d.config hv calls p hp r hr]
      change ((0 : UInt64) + UInt64.ofNat _).toNat = _
      have hle := List.countP_le_length (p := selectedAt lib (newRuleState lib d.config.seed p.id r))
        (l := List.range (owned calls p r))
      rw [List.length_range] at hle
      rw [UInt64.zero_add, toNat_ofNat_lt _ (lt_of_le_of_lt hle hN)]
  · intro call p hp r hr hnot
    have hstep := (decide_tracks lib d.config hv _ _ call htracks).2
    rw [ruleState_tracks lib d.config hv _ _ hstep p hp r hr,
      ruleState_tracks lib d.config hv _ _ htracks p hp r hr, bump_of_not_owns d.config _ call p hp r hnot]
  · intro call hnone
    have hstep := (decide_tracks lib d.config hv _ _ call htracks).2
    refine tracks_unique lib d.config _ _ _ hstep
      (tracks_bump_of_not_owned lib d.config _ _ call htracks (fun p hp r _ => ?_))
    rw [Bool.eq_false_iff]
    exact fun howned => hnone p r ((ownedBy_iff_owns d.config call p hp r).mp howned)

def sampleCall : Call := ⟨"api", ⟨bytesOf "GET", [], bytesOf "/", []⟩, true⟩

theorem engine_run_law_every : ∃ d e,
    sampleFinish [sampleRule "slow" ⟨none, none, some 2⟩] = .ok d ∧
      Engine.new standardLibrary (some d) = some e ∧
      EngineRunLaw standardLibrary d.config e [sampleCall, sampleCall, sampleCall] := by
  obtain ⟨d, hd, -⟩ := sampleFinish_ok [sampleRule "slow" ⟨none, none, some 2⟩] (by decide +kernel)
  have hvalid := (finish_valid _ _ _ _ _ d hd).1
  have he : Engine.new standardLibrary (some d) = some ⟨engineProxies standardLibrary d.config⟩ := by
    simp [Engine.new, hvalid]
  exact ⟨d, _, hd, he, engine_run_law _ _ _ _ _ d _ hd he _⟩

end Faultline
