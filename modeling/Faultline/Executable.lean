import Faultline.ConfigValid
import Faultline.Executors
import Faultline.StandardYaml

/-! Validation against execution: what a rule of an accepted document looks like for each
protocol, and that no adapter panics on it. -/
namespace Faultline

structure ProxyChecked (p : Proxy) : Prop where
  protocol : p.protocol ∈ knownProtocols
  rules : ∀ r ∈ p.ruleList, ∃ r' path, validateProxyRule p.protocol r' path = .ok r

theorem validateRules_mem (protocol path : String) (j : ℕ) (rules rules' : List Rule)
    (h : validateRules protocol path j rules = .ok rules') :
    ∀ r ∈ rules', ∃ r' path', validateProxyRule protocol r' path' = .ok r := by
  induction rules generalizing j rules' with
  | nil =>
    cases h
    simp
  | cons r rules ih =>
    simp only [validateRules, bind_eq_ok, pure_eq_ok] at h
    obtain ⟨r', hr, rest, hrest, rfl⟩ := h
    exact List.forall_mem_cons.mpr ⟨⟨r, _, hr⟩, ih (j+1) rest hrest⟩

theorem validateProxy_checked (lib : Library) (host : Host) (base path : String)
    (listeners : List String) (digests digests' : Digests) (p p' : Proxy)
    (h : validateProxy lib host base path listeners digests p = .ok (p', digests')) :
    ProxyChecked p' := by
  simp only [validateProxy, bind_eq_ok, reject_eq_ok, exists_const, pure_eq_ok] at h
  obtain ⟨u, hprotocols, listen, -, -, ⟨q, _⟩, hq, rules, hrules, hp⟩ := h
  cases hp
  obtain ⟨upstream, tls, upstreamTLS, rfl⟩ := validateUpstream_keeps lib host base path _ _ _ _ hq
  simp only [validateProtocols, bind_eq_ok, reject_eq_ok, exists_const, Decidable.not_not] at hprotocols
  exact ⟨hprotocols.2.1, validateRules_mem _ _ 0 _ rules hrules⟩

theorem validateProxies_mem (lib : Library) (host : Host) (base : String) (i : ℕ)
    (listeners : List String) (digests digests' : Digests) (ps ps' : List Proxy)
    (h : validateProxies lib host base i listeners digests ps = .ok (ps', digests')) :
    ∀ p ∈ ps', ∃ q path listeners digests digests',
      validateProxy lib host base path listeners digests q = .ok (p, digests') := by
  induction ps generalizing i listeners digests ps' with
  | nil =>
    cases h
    simp
  | cons p ps ih =>
    simp only [validateProxies, bind_eq_ok, pure_eq_ok] at h
    obtain ⟨⟨p', _⟩, hp, ⟨rest, _⟩, hrest, heq⟩ := h
    cases heq
    exact List.forall_mem_cons.mpr ⟨⟨p, _, _, _, _, hp⟩, ih _ _ _ rest hrest⟩

theorem finish_proxies (lib : Library) (host : Host) (c : Config) (sources : List ProxySource)
    (root : String) (d : Document) (h : finish lib host c sources root = .ok d) :
    ∀ p ∈ d.config.proxies, ∃ q base path listeners digests digests',
      validateProxy lib host base path listeners digests q = .ok (p, digests') := by
  unfold finish at h
  split at h
  · cases h
  split at h
  · cases h
  rename_i proxies _ c' digests hvalidate
  split at h
  · cases h
  rename_i hdoc
  cases h
  rw [(newDocument_some lib c' digests d hdoc).1]
  simp only [validate, bind_eq_ok, reject_eq_ok, exists_const, pure_eq_ok] at hvalidate
  obtain ⟨-, -, -, -, ⟨ps, _⟩, hps, hc⟩ := hvalidate
  cases hc
  intro p hp
  obtain ⟨q, path, listeners, digests, digests', hproxy⟩ := validateProxies_mem lib host _ 0 [] ∅ _ _ ps hps p hp
  exact ⟨q, _, path, listeners, digests, digests', hproxy⟩

theorem finish_checked (lib : Library) (host : Host) (c : Config) (sources : List ProxySource)
    (root : String) (d : Document) (h : finish lib host c sources root = .ok d) :
    ∀ p ∈ d.config.proxies, ProxyChecked p := by
  intro p hp
  obtain ⟨q, base, path, listeners, digests, digests', hproxy⟩ := finish_proxies lib host c sources root d h p hp
  exact validateProxy_checked lib host base path listeners digests digests' q p hproxy

/-- Documents that `Parse` or `Load` returns. -/
def Accepted (lib : Library) (y : Yaml) (host : Host) (d : Document) : Prop :=
  (∃ data filename, parse lib y host data filename = .ok d) ∨
    ∃ filename, load lib y host filename = .ok d

theorem Accepted.finished {lib : Library} {y : Yaml} {host : Host} {d : Document}
    (h : Accepted lib y host d) : ∃ c sources root, finish lib host c sources root = .ok d := by
  rcases h with ⟨data, filename, h⟩ | ⟨filename, h⟩
  · unfold parse at h
    split_ifs at h
    split at h
    · cases h
    · rw [bind_eq_ok] at h
      obtain ⟨c, -, h⟩ := h
      exact ⟨c, _, _, h⟩
  · unfold load at h
    split_ifs at h
    split at h
    · cases h
    split at h
    · cases h
    split_ifs at h
    · cases h
    split at h
    · cases h
    · simp only [bind_eq_ok] at h
      obtain ⟨raw, -, acc, -, h⟩ := h
      exact ⟨_, _, _, h⟩

def isHTTP (protocol : String) : Bool := protocol ∈ ["http1", "http2", "grpc"]

theorem isHTTP_other (protocol : String) (h : isHTTP protocol = true) :
    isDatabase protocol = false ∧ protocol ≠ "tcp" := by
  simp only [isHTTP, decide_eq_true_eq, List.mem_cons, List.not_mem_nil, or_false] at h
  rcases h with rfl | rfl | rfl <;> decide

def Positive (n : Option Int64) : Prop := ∃ d, n = some d ∧ 0 < d

theorem positive_of_not (n : Option Int64) (h : ¬ notPositive n = true) : Positive n := by
  cases n with
  | none => simp [notPositive] at h
  | some d => exact ⟨d, rfl, by simpa [notPositive] using h⟩

structure HTTPFault (f : Fault) : Prop where
  action : f.action ∈ ["delay", "respond", "close_connection", "hold_request", "hold_response",
    "truncate", "throttle"]
  phase : f.actsAt f.phase
  delay : f.action = "delay" → Positive f.duration
  respond : f.action = "respond" → f.phase = beforeUpstreamRequest ∧
    (∃ status, f.status = some status ∧ 200 ≤ status ∧ status ≤ 599) ∧ f.body.isSome
  holdRequest : f.action = "hold_request" →
    f.phase = beforeUpstreamRequest ∧ Positive f.maxDuration
  holdResponse : f.action = "hold_response" →
    f.phase = afterUpstreamHeaders ∧ Positive f.maxDuration
  truncate : f.action = "truncate" → ∃ n, f.bytes = some n ∧ 0 ≤ n
  throttle : f.action = "throttle" → Positive f.bytesPerSecond

theorem validateFault_http (f : Fault) (path : String) (body : Option String)
    (hbody : f.action = "respond" → body.isSome) (h : validateFault f path = .ok ()) :
    HTTPFault { f with body := body } := by
  rw [validateFault, reject_bind_eq_ok, reject_bind_eq_ok, bind_eq_ok] at h
  obtain ⟨-, hphase, u, haction, -⟩ := h
  have hphase' : f.phase = beforeUpstreamRequest ∨ f.phase = afterUpstreamHeaders := by
    by_contra hne
    exact hphase (not_or.mp hne)
  constructor
  · by_contra hne
    simp only [List.mem_cons, List.not_mem_nil, or_false, not_or] at hne
    obtain ⟨h1, h2, h3, h4, h5, h6, h7⟩ := hne
    simp [validateAction, h1, h2, h3, h4, h5, h6, h7] at haction
  · unfold Fault.actsAt
    by_cases hb : f.action = "truncate" ∨ f.action = "throttle"
    · have hdirection : (f.direction = "request" ∨ f.direction = "response") ∧
          (f.direction = "request" ↔ f.phase = beforeUpstreamRequest) := by
        rcases hb with ha | ha <;> simp [validateAction, ha] at haction <;>
          exact ⟨by tauto, haction.2.1⟩
      rw [if_pos (by simpa [Fault.onBody] using hb)]
      rcases hdirection.1 with hd | hd
      · exact Or.inl ⟨hdirection.2.mp hd, hd⟩
      · refine Or.inr ⟨hphase'.resolve_left (fun hp => ?_), hd⟩
        have := hdirection.2.mpr hp
        simp [hd] at this
    · rw [if_neg (by simpa [Fault.onBody] using hb)]
      exact hphase'
  · intro ha
    apply positive_of_not
    simpa [validateAction, show f.action = "delay" from ha] using haction
  · intro ha
    replace ha : f.action = "respond" := ha
    simp only [validateAction, ha, String.reduceEq, if_false, if_true, reject_bind_eq_ok,
      Decidable.not_not, reject_eq_ok] at haction
    refine ⟨haction.1, ?_, hbody ha⟩
    cases hs : f.status with
    | none => simp [hs] at haction
    | some status => exact ⟨status, rfl, by simpa [hs] using haction.2⟩
  · intro ha
    replace ha : f.action = "hold_request" := ha
    simp [validateAction, ha] at haction
    exact ⟨haction.1, positive_of_not _ (by simpa using haction.2)⟩
  · intro ha
    replace ha : f.action = "hold_response" := ha
    simp [validateAction, ha] at haction
    exact ⟨haction.1, positive_of_not _ (by simpa using haction.2)⟩
  · intro ha
    replace ha : f.action = "truncate" := ha
    simp [validateAction, ha] at haction
    cases hb : f.bytes with
    | none => simp [hb] at haction
    | some n => exact ⟨n, rfl, by simpa [hb] using haction.2.2⟩
  · intro ha
    replace ha : f.action = "throttle" := ha
    simp [validateAction, ha] at haction
    exact positive_of_not _ (by simpa using haction.2.2)

theorem validateRule_http (r r' : Rule) (path : String) (h : validateRule r path = .ok r') :
    HTTPFault r'.fault := by
  simp only [validateRule, bind_eq_ok, reject_eq_ok, exists_const, pure_eq_ok] at h
  obtain ⟨-, -, -, -, headers, -, select, -, u, hfault, rfl⟩ := h
  apply validateFault_http r.fault _ _ _ hfault
  intro ha
  by_cases hb : r.fault.body = none
  · simp [ha, hb]
  · simpa [ha, hb] using Option.isSome_iff_ne_none.mpr hb

theorem validateCommitRule_duration (r r' : Rule) (path : String)
    (h : validateCommitRule r path = .ok r') :
    (r'.fault.action = "delay" → Positive r'.fault.duration) ∧
      (r'.fault.action = "hold_response" → Positive r'.fault.maxDuration) := by
  simp only [validateCommitRule, bind_eq_ok, reject_eq_ok, exists_const, pure_eq_ok] at h
  obtain ⟨-, -, checked, hchecked, rfl⟩ := h
  have hfault := validateRule_http _ checked path hchecked
  have hsame : checked.fault.action = r.fault.action ∧
      checked.fault.duration = r.fault.duration ∧
      checked.fault.maxDuration = r.fault.maxDuration := by
    simp only [validateRule, bind_eq_ok, reject_eq_ok, exists_const, pure_eq_ok] at hchecked
    obtain ⟨-, -, -, -, headers, -, select, -, u, -, rfl⟩ := hchecked
    exact ⟨rfl, rfl, rfl⟩
  obtain ⟨haction, hduration, hmax⟩ := hsame
  exact ⟨fun ha => hduration ▸ hfault.delay (haction.trans ha),
    fun ha => hmax ▸ (hfault.holdResponse (haction.trans ha)).2⟩

structure TCPFault (f : Fault) : Prop where
  delay : f.action = "delay_connect" → Positive f.duration
  hold : f.action = "hold" → Positive f.maxDuration
  throttle : f.action = "throttle" → Positive f.bytesPerSecond

theorem validateTCPRule_fault (r r' : Rule) (path : String) (h : validateTCPRule r path = .ok r') :
    TCPFault r'.fault := by
  simp only [validateTCPRule, bind_eq_ok, reject_eq_ok, exists_const, pure_eq_ok] at h
  obtain ⟨-, select, -, -, -, -, -, -, -, u, haction, rfl⟩ := h
  constructor
  · intro ha
    replace ha : r.fault.action = "delay_connect" := ha
    simp [validateTCPAction, ha] at haction
    exact positive_of_not _ (by simpa using haction.2.1)
  · intro ha
    replace ha : r.fault.action = "hold" := ha
    simp [validateTCPAction, ha] at haction
    exact positive_of_not _ (by simpa using haction.2.2.1)
  · intro ha
    replace ha : r.fault.action = "throttle" := ha
    simp [validateTCPAction, ha] at haction
    exact positive_of_not _ (by simpa using haction.2.2.1)

theorem attemptSelector_valid (lib : Library) (r : RuleState) (sequence : UInt64)
    (h : SelectorValid r.rule.select) :
    attemptSelector lib r sequence = some (selectAttempt lib r sequence) := by
  have hone := h.one
  unfold attemptSelector selectAttempt
  cases hn : r.rule.select.nth with
  | some n => rfl
  | none =>
    cases he : r.rule.select.every with
    | some e =>
      have hpos : e ≠ 0 := by
        rintro rfl
        exact h.every he
      simp only [if_neg hpos]
    | none =>
      cases hp : r.rule.select.probability with
      | none => simp [hn, he, hp] at hone
      | some p => simp [Selector.chance, hp]

theorem execute_defined (f : Fault) (h : HTTPFault f) (hbody : f.onBody = false) (a : FlowAnswers) :
    ∃ e, execute f a = some e ∧ ∀ action, e.error ≠ some (.unsupported action) := by
  have hmap (e : Option String) (action : String) :
      e.map ExecuteError.returned ≠ some (.unsupported action) := by
    cases e <;> simp
  unfold execute
  split
  · exact ⟨_, rfl, by simp⟩
  have haction := h.action
  simp only [Fault.onBody, Bool.or_eq_false_iff, decide_eq_false_iff_not] at hbody
  simp only [List.mem_cons, List.not_mem_nil, or_false, hbody.1, hbody.2] at haction
  rcases haction with ha | ha | ha | ha | ha
  · obtain ⟨d, hd, -⟩ := h.delay ha
    simp [ha, hd, hmap]
  · obtain ⟨-, ⟨status, hs, -⟩, hb⟩ := h.respond ha
    obtain ⟨body, hb⟩ := Option.isSome_iff_exists.mp hb
    simp [ha, hs, hb, hmap]
  · cases hc : a.closeConnection <;> simp [ha]
  · obtain ⟨-, d, hd, -⟩ := h.holdRequest ha
    simp [ha, hd, hmap]
  · obtain ⟨-, d, hd, -⟩ := h.holdResponse ha
    simp [ha, hd, hmap]

def Body.Sound (b : Body) : Prop :=
  if b.action.action = "truncate" then 0 ≤ b.remaining else Positive b.action.bytesPerSecond

theorem wrapBody_sound (f : Fault) (h : HTTPFault f) (hbody : f.onBody = true) :
    (wrapBody f).Sound := by
  unfold Body.Sound wrapBody
  by_cases ht : f.action = "truncate"
  · rw [if_pos ht]
    obtain ⟨n, hn, hpos⟩ := h.truncate ht
    simpa [hn] using hpos
  · rw [if_neg ht]
    simp only [Fault.onBody, Bool.or_eq_true, decide_eq_true_eq] at hbody
    exact h.throttle (hbody.resolve_left ht)

theorem sub_ofNat_nonneg (a : Int64) (n : ℕ) (h : (n : ℤ) ≤ a.toInt) :
    0 ≤ a - Int64.ofNat n := by
  have ha := a.toInt_lt
  have hn : (Int64.ofNat n).toInt = n := Int64.toInt_ofNat_of_lt (by omega)
  rw [Int64.le_iff_toInt_le, Int64.toInt_sub, hn, Int64.toInt_zero]
  rw [Int.bmod_eq_of_le (by omega) (by omega)]
  omega

theorem Body.read_defined (b : Body) (h : b.Sound) (length : ℕ) (context : Option String)
    (a : SourceAnswer) : ∃ r b', b.read length context a = some (r, b') ∧ b'.Sound := by
  unfold Body.read
  by_cases hlen : length = 0
  · exact ⟨_, b, if_pos hlen, h⟩
  rw [if_neg hlen]
  by_cases hctx : context.isSome
  · exact ⟨_, b, if_pos hctx, h⟩
  rw [if_neg hctx]
  by_cases ht : b.action.action = "truncate"
  · rw [if_pos ht]
    have hpos : 0 ≤ b.remaining := by simpa [Body.Sound, ht] using h
    by_cases hz : b.remaining = 0
    · rw [if_pos hz]
      by_cases hp : 0 < min a.size 1
      · exact ⟨_, b, if_pos hp, h⟩
      · exact ⟨_, b, if_neg hp, h⟩
    · have hint : (0 : ℤ) ≤ b.remaining.toInt := Int64.le_iff_toInt_le.mp hpos
      have hbound : ¬ min (length : ℤ) b.remaining.toInt < 0 := by omega
      rw [if_neg hz, if_neg hbound]
      refine ⟨_, _, rfl, ?_⟩
      simp only [Body.Sound, ht, if_true]
      apply sub_ofNat_nonneg
      omega
  · rw [if_neg ht]
    obtain ⟨rate, hrate, -⟩ : Positive b.action.bytesPerSecond := by simpa [Body.Sound, ht] using h
    simp only [hrate]
    have hbound : ¬ min (length : ℤ) (min (16*2^10) (max 1 (rate / 10).toInt)) < 0 := by omega
    rw [if_neg hbound]
    split_ifs
    · exact ⟨_, b, rfl, h⟩
    · exact ⟨_, b, rfl, h⟩

def Body.reads (b : Body) : List (ℕ × Option String × SourceAnswer) → Option Body
  | [] => some b
  | (length, context, a) :: rest => (b.read length context a).bind (fun r => r.2.reads rest)

theorem Body.reads_defined (b : Body) (h : b.Sound)
    (rs : List (ℕ × Option String × SourceAnswer)) : (b.reads rs).isSome := by
  induction rs generalizing b with
  | nil => rfl
  | cons r rs ih =>
    obtain ⟨length, context, a⟩ := r
    obtain ⟨r, b', hread, hsound⟩ := b.read_defined h length context a
    rw [Body.reads, hread, Option.bind_some]
    exact ih b' hsound

structure HTTPRuns (f : Fault) : Prop where
  fault : HTTPFault f
  execute : f.onBody = false → ∀ a, ∃ e, execute f a = some e ∧
    ∀ action, e.error ≠ some (.unsupported action)
  read : f.onBody = true → ∀ rs, ((wrapBody f).reads rs).isSome

theorem httpRuns (f : Fault) (h : HTTPFault f) : HTTPRuns f :=
  ⟨h, fun hbody a => execute_defined f h hbody a,
    fun hbody rs => (wrapBody f).reads_defined (wrapBody_sound f h hbody) rs⟩

structure DatabaseRuns (f : Fault) : Prop where
  delay : f.action = "delay" → Positive f.duration
  hold : f.action = "hold_response" → Positive f.maxDuration
  apply : ∀ elapsed, (applyFault elapsed f).isSome

theorem applyFault_defined (elapsed : Bool) (f : Fault) (haction : f.action ∈ actions "mysql")
    (hdelay : f.action = "delay" → Positive f.duration)
    (hhold : f.action = "hold_response" → Positive f.maxDuration) :
    (applyFault elapsed f).isSome := by
  have hcases : f.action = "delay" ∨ f.action = "hold_response" ∨ f.action = "close_connection" := by
    simpa [actions, isDatabase] using haction
  unfold applyFault
  rcases hcases with ha | ha | ha
  · obtain ⟨d, hd, -⟩ := hdelay ha
    simp [ha, hd]
  · obtain ⟨d, hd, -⟩ := hhold ha
    simp [ha, hd]
  · simp [ha]

namespace TCP

/-- The tcp adapter on a fault: every dereference has its value, and the product that `pace`
forms of a chunk does not overflow. -/
structure Runs (f : Fault) : Prop where
  fault : TCPFault f
  start : (startFault f).isSome
  activate : (activateFault f).isSome
  held : ∀ active d, (heldTimer f active d).isSome
  remaining : ∀ active d count, (remainingBytes f active d count).isSome
  dial : (dialDelay f).isSome
  pace : ∀ active d n, (paceDuration f active d n).isSome
  product : ∀ (s : Relay) (d : Direction) (p : Pump), s.fault = some f → f.action = "throttle" →
    (Int64.ofNat (s.chunk d p) * second).toInt = s.chunk d p * second.toInt

theorem chunk_le (s : Relay) (d : Direction) (p : Pump) (f : Fault) (hf : s.fault = some f)
    (ha : f.action = "throttle") : s.chunk d p ≤ 1024 := by
  unfold Relay.chunk
  simp only [hf, Option.any_some, ha, decide_true, and_true]
  split_ifs <;> omega

theorem pace_product (n : ℕ) (h : n ≤ 1024) :
    (Int64.ofNat n * second).toInt = n * second.toInt := by
  have hn : (Int64.ofNat n).toInt = n := Int64.toInt_ofNat_of_lt (by omega)
  have hs : second.toInt = 1000000000 := by decide
  rw [Int64.toInt_mul, hn, hs]
  exact Int.bmod_eq_of_le (by omega) (by omega)

theorem runs (f : Fault) (h : TCPFault f) : Runs f := by
  refine ⟨h, ?_, ?_, ?_, ?_, ?_, ?_, ?_⟩
  · unfold startFault
    cases f.afterDuration <;> cases f.afterBytes <;> simp
  · unfold activateFault
    by_cases ha : f.action = "hold"
    · obtain ⟨d, hd, -⟩ := h.hold ha
      simp [ha, hd]
    · simp [ha]
  · intro active d
    unfold heldTimer
    by_cases ha : f.action = "hold"
    · obtain ⟨m, hm, -⟩ := h.hold ha
      split_ifs <;> simp [hm]
    · simp [ha]
  · intro active d count
    unfold remainingBytes
    cases f.afterBytes with
    | none => simp
    | some n => split_ifs <;> simp
  · unfold dialDelay
    by_cases ha : f.action = "delay_connect"
    · obtain ⟨d, hd, -⟩ := h.delay ha
      simp [ha, hd]
    · simp [ha]
  · intro active d n
    unfold paceDuration
    by_cases ha : f.action = "throttle"
    · obtain ⟨rate, hr, hpos⟩ := h.throttle ha
      have hne : rate ≠ 0 := by
        rintro rfl
        exact absurd hpos (by decide)
      split_ifs <;> simp [hr, hne]
    · simp [ha]
  · intro s d p hf ha
    exact pace_product _ (chunk_le s d p f hf ha)

end TCP

structure Executable (protocol : String) (r : Rule) : Prop where
  known : protocol ∈ knownProtocols
  selector : SelectorValid r.select
  attempt : ∀ lib (s : RuleState) sequence, s.rule = r → (attemptSelector lib s sequence).isSome
  http : isHTTP protocol = true → HTTPRuns r.fault
  database : isDatabase protocol = true → DatabaseRuns r.fault
  tcp : protocol = "tcp" → TCP.Runs r.fault

theorem validateProxyRule_executable (protocol : String) (r r' : Rule) (path : String)
    (hprotocol : protocol ∈ knownProtocols) (h : validateProxyRule protocol r path = .ok r') :
    Executable protocol r' := by
  obtain ⟨-, ⟨hselect, -⟩, -⟩ := validateProxyRule_idem protocol r r' path path h
  simp only [validateProxyRule, bind_eq_ok, reject_eq_ok, exists_const] at h
  obtain ⟨-, -, -, haction, hrule⟩ := h
  refine ⟨hprotocol, hselect, ?_, ?_, ?_, ?_⟩
  · rintro lib s sequence rfl
    rw [attemptSelector_valid lib s sequence hselect]
    rfl
  · intro hhttp
    obtain ⟨hdb, htcp⟩ := isHTTP_other protocol hhttp
    rw [if_neg (by simp [hdb]), if_neg htcp] at hrule
    exact httpRuns _ (validateRule_http r r' path hrule)
  · intro hdb
    rw [if_pos hdb] at hrule
    obtain ⟨hdelay, hhold⟩ := validateCommitRule_duration r r' path hrule
    have hactions : actions protocol = actions "mysql" := by
      simp only [isDatabase, Bool.or_eq_true, decide_eq_true_eq] at hdb
      rcases hdb with rfl | rfl <;> rfl
    have hsame : r'.fault.action = r.fault.action := by
      simp only [validateCommitRule, bind_eq_ok, reject_eq_ok, exists_const, pure_eq_ok] at hrule
      obtain ⟨-, -, checked, -, rfl⟩ := hrule
      rfl
    refine ⟨hdelay, hhold, fun elapsed => applyFault_defined elapsed _ ?_ hdelay hhold⟩
    rw [hsame, ← hactions]
    exact not_not.mp haction
  · rintro rfl
    rw [if_neg (by decide), if_pos rfl] at hrule
    exact TCP.runs _ (validateTCPRule_fault r r' path hrule)

theorem rules_executable (lib : Library) (y : Yaml) (host : Host) (d : Document)
    (hd : Accepted lib y host d) :
    ∀ p ∈ d.config.proxies, ∀ r ∈ p.ruleList, Executable p.protocol r := by
  intro p hp r hr
  obtain ⟨c, sources, root, hfinish⟩ := hd.finished
  have hchecked := finish_checked lib host c sources root d hfinish p hp
  obtain ⟨r', path, hrule⟩ := hchecked.rules r hr
  exact validateProxyRule_executable p.protocol r' r path hchecked.protocol hrule

def sampleText : Bytes := bytesOf
  ("api_version: faultline/v1alpha1\nseed: 42\nruntime:\n    max_inflight_requests: 1000\n" ++
    "    request_timeout: 30s\nproxies:\n    - id: api\n      protocol: http1\n" ++
    "      upstream_protocol: http1\n      listen: 127.0.0.1:8080\n" ++
    "      upstream: http://127.0.0.1:9000\n      rules:\n        - id: slow\n" ++
    "          enabled: true\n          match:\n            path_pattern: \"\"\n" ++
    "            method: \"\"\n            service: \"\"\n            path: \"\"\n" ++
    "            headers: \x7b\x7d\n          select:\n            nth: 1\n          fault:\n" ++
    "            phase: before_upstream_request\n            action: delay\n" ++
    "            duration: 1ms\n            direction: \"\"\n" ++
    "            trigger_direction: \"\"\n")

def sampleRules : List Rule := [sampleRule "slow" ⟨none, some 1, none⟩]

def sampleYaml : Yaml :=
  standardYaml sampleText (prune (encodeConfig (standardYaml [] .alias) (sampleConfig sampleRules)))

theorem sample_accepted : ∃ d, parse standardLibrary sampleYaml sampleHost sampleText
    "/etc/faultline.yaml" = .ok d ∧ d.config = sampleConfig sampleRules := by
  have h : (parse standardLibrary sampleYaml sampleHost sampleText
      "/etc/faultline.yaml").toOption.map (·.config) = some (sampleConfig sampleRules) := by
    decide +kernel
  cases hp : parse standardLibrary sampleYaml sampleHost sampleText "/etc/faultline.yaml" with
  | error e =>
    rw [hp] at h
    cases h
  | ok d =>
    rw [hp] at h
    exact ⟨d, rfl, Option.some.inj h⟩

theorem rules_executable_delay : ∃ d, Accepted standardLibrary sampleYaml sampleHost d ∧
    d.config = sampleConfig sampleRules ∧
    ∀ p ∈ d.config.proxies, ∀ r ∈ p.ruleList, Executable p.protocol r := by
  obtain ⟨d, hparse, hconfig⟩ := sample_accepted
  have hd : Accepted standardLibrary sampleYaml sampleHost d := Or.inl ⟨_, _, hparse⟩
  exact ⟨d, hd, hconfig, rules_executable standardLibrary sampleYaml sampleHost d hd⟩

end Faultline
