import Faultline.ConfigValid
import Faultline.Engine
import Faultline.Machine

/-! Histories of `Decide` calls. The matching part of a call reads immutable data
only, so a concurrent execution is the list of its calls in the order of their
critical sections. After any history a rule is in the state that its own owned
calls, and nothing else, have brought it to. -/
namespace Faultline

structure Call where
  proxyID : String
  metadata : Metadata
  enabled : Bool

def runCalls (lib : Library) : Engine → List Call → List (Except String Decision) × Engine :=
  run (fun e call => e.decide lib call.proxyID call.metadata call.enabled)

def rounds (lib : Library) (n : ℕ) (s : RuleState) : RuleState := (fun s => (attempt lib s).2)^[n] s

def selectedAt (lib : Library) (s : RuleState) (n : ℕ) : Bool := (attempt lib (rounds lib n s)).1

/-- The call is enabled, goes to the proxy, and the rule is the first one there
that `Decide` does not skip. -/
def ownedBy (p : Proxy) (r : Rule) (call : Call) : Bool :=
  call.enabled && call.proxyID = p.id && p.ruleList.find? (applicable call.metadata) = some r

def decisionsOf (proxyID ruleID : String) (results : List (Except String Decision)) : List Decision :=
  results.filterMap (fun x => match x with
    | .ok d => if d.proxyID = proxyID ∧ d.ruleID = ruleID then some d else none
    | .error _ => none)

theorem rounds_succ (lib : Library) (n : ℕ) (s : RuleState) :
    rounds lib (n+1) s = (attempt lib (rounds lib n s)).2 := Function.iterate_succ_apply' _ n s

@[simp] theorem attempt_rule (lib : Library) (s : RuleState) : (attempt lib s).2.rule = s.rule := rfl

@[simp] theorem attempt_seeds (lib : Library) (s : RuleState) : (attempt lib s).2.seeds = s.seeds := rfl

@[simp] theorem attempt_eligible (lib : Library) (s : RuleState) :
    (attempt lib s).2.counters.eligible = s.counters.eligible + 1 := rfl

theorem attempt_selected (lib : Library) (s : RuleState) :
    (attempt lib s).2.counters.selected =
      s.counters.selected + if (attempt lib s).1 then 1 else 0 := by
  unfold attempt
  simp only
  split <;> simp

@[simp] theorem rounds_rule (lib : Library) (n : ℕ) (s : RuleState) :
    (rounds lib n s).rule = s.rule := by
  induction n with
  | zero => rfl
  | succ n ih => rw [rounds_succ, attempt_rule, ih]

@[simp] theorem rounds_seeds (lib : Library) (n : ℕ) (s : RuleState) :
    (rounds lib n s).seeds = s.seeds := by
  induction n with
  | zero => rfl
  | succ n ih => rw [rounds_succ, attempt_seeds, ih]

theorem rounds_eligible (lib : Library) (n : ℕ) (s : RuleState) :
    (rounds lib n s).counters.eligible = s.counters.eligible + UInt64.ofNat n := by
  induction n with
  | zero => simp [rounds]
  | succ n ih => rw [rounds_succ, attempt_eligible, ih, UInt64.ofNat_add, UInt64.add_assoc]; rfl

theorem rounds_selected (lib : Library) (n : ℕ) (s : RuleState) :
    (rounds lib n s).counters.selected =
      s.counters.selected + UInt64.ofNat ((List.range n).countP (selectedAt lib s)) := by
  induction n with
  | zero => simp [rounds]
  | succ n ih =>
    rw [rounds_succ, attempt_selected, ih, List.range_succ, List.countP_append,
      List.countP_singleton, UInt64.ofNat_add, UInt64.add_assoc]
    change _ + (_ + if selectedAt lib s n = true then 1 else 0) = _
    by_cases h : selectedAt lib s n = true
    · simp only [h, if_true]; rfl
    · simp only [h]; rfl

/-- The rule loop on the states of distinct rules: the first applicable rule makes
one attempt, and the others keep their states. -/
theorem decideRules_map (lib : Library) (proxyID : String) (metadata : Metadata)
    (f : Rule → RuleState) (hf : ∀ r, (f r).rule = r) (rules : List Rule) (hn : rules.Nodup) :
    decideRules lib proxyID metadata (rules.map f) =
      match rules.find? (applicable metadata) with
      | none => (noDecision proxyID, rules.map f)
      | some r => (ownedDecision lib proxyID (f r),
          rules.map (fun q => if q = r then (attempt lib (f q)).2 else f q)) := by
  induction rules with
  | nil => rfl
  | cons q rules ih =>
    obtain ⟨hq, hrules⟩ := List.nodup_cons.mp hn
    rw [List.map_cons, decideRules, hf q]
    by_cases happ : applicable metadata q = true
    · have hrest : rules.map (fun s => if s = q then (attempt lib (f s)).2 else f s) = rules.map f :=
        List.map_congr_left (fun s hs => if_neg (fun he : s = q => hq (he ▸ hs)))
      simp only [List.find?_cons_of_pos happ, if_pos happ, List.map_cons, if_true, hrest]
    · rw [if_neg happ, List.find?_cons_of_neg happ, ih hrules]
      cases hfind : rules.find? (applicable metadata) with
      | none => rfl
      | some r =>
        have hne : q ≠ r := fun he => hq (he ▸ List.mem_of_find?_eq_some hfind)
        simp only [List.map_cons, if_neg hne]

def statesAt (lib : Library) (c : Config) (n : Proxy → Rule → ℕ) (proxyID : String) :
    Option (List RuleState) :=
  (c.proxies.find? (fun p => p.id = proxyID)).map (fun p =>
    p.ruleList.map (fun r => rounds lib (n p r) (newRuleState lib c.seed p.id r)))

def Tracks (lib : Library) (c : Config) (n : Proxy → Rule → ℕ) (e : Engine) : Prop :=
  ∀ proxyID, e.proxies.get? proxyID = statesAt lib c n proxyID

theorem foldl_insert_get? {α ν : Type} (key : α → String) (val : α → ν) (l : List α)
    (hn : (l.map key).Nodup) (m : OrdMap String ν) (k : String) :
    (l.foldl (fun m a => m.insert (key a) (val a)) m).get? k =
      ((l.find? (fun a => key a = k)).map val).or (m.get? k) := by
  induction l generalizing m with
  | nil => simp
  | cons a l ih =>
    obtain ⟨ha, hl⟩ := List.nodup_cons.mp hn
    rw [List.foldl_cons, ih hl, OrdMap.get?_insert]
    by_cases hk : key a = k
    · have hnone : l.find? (fun b => key b = k) = none := by
        rw [List.find?_eq_none]
        intro b hb
        have hne : key b ≠ k := fun he => ha (hk ▸ he ▸ List.mem_map_of_mem hb)
        simpa using hne
      simp [hk, hnone]
    · rw [List.find?_cons_of_neg (by simpa using hk), if_neg (Ne.symm hk)]

theorem tracks_new (lib : Library) (c : Config) (hv : ConfigValid c) :
    Tracks lib c (fun _ _ => 0) ⟨engineProxies lib c⟩ := by
  intro proxyID
  change (engineProxies lib c).get? proxyID = _
  rw [engineProxies, foldl_insert_get? Proxy.id _ c.proxies hv.proxyIDs]
  simp [statesAt, rounds]

theorem mem_of_find_id (c : Config) (proxyID : String) (p : Proxy)
    (h : c.proxies.find? (fun p => p.id = proxyID) = some p) : p ∈ c.proxies ∧ p.id = proxyID :=
  ⟨List.mem_of_find?_eq_some h, by simpa using List.find?_some h⟩

theorem find_id_of_mem (c : Config) (hv : ConfigValid c) (p : Proxy) (hp : p ∈ c.proxies) :
    c.proxies.find? (fun q => q.id = p.id) = some p := by
  cases hfind : c.proxies.find? (fun q => q.id = p.id) with
  | none =>
    have hnone := List.find?_eq_none.mp hfind p hp
    simp at hnone
  | some q =>
    obtain ⟨hq, hid⟩ := mem_of_find_id c p.id q hfind
    rw [List.inj_on_of_nodup_map hv.proxyIDs hq hp hid]

def bump (n : Proxy → Rule → ℕ) (call : Call) (p : Proxy) (r : Rule) : ℕ :=
  n p r + if ownedBy p r call then 1 else 0

def resultAt (lib : Library) (c : Config) (n : Proxy → Rule → ℕ) (call : Call) :
    Except String Decision :=
  match c.proxies.find? (fun p => p.id = call.proxyID) with
  | none => .error unknownProxy
  | some p =>
    match (if call.enabled then p.ruleList.find? (applicable call.metadata) else none) with
    | none => .ok (noDecision call.proxyID)
    | some r => .ok (ownedDecision lib call.proxyID
        (rounds lib (n p r) (newRuleState lib c.seed p.id r)))

theorem nodup_rules (c : Config) (hv : ConfigValid c) (p : Proxy) (hp : p ∈ c.proxies) :
    p.ruleList.Nodup := List.Nodup.of_map Rule.id (hv.ruleIDs p hp)

theorem statesAt_congr (lib : Library) (c : Config) (n m : Proxy → Rule → ℕ) (proxyID : String)
    (h : ∀ p ∈ c.proxies, p.id = proxyID → ∀ r ∈ p.ruleList, n p r = m p r) :
    statesAt lib c n proxyID = statesAt lib c m proxyID := by
  unfold statesAt
  cases hfind : c.proxies.find? (fun p => p.id = proxyID) with
  | none => rfl
  | some p =>
    obtain ⟨hp, hid⟩ := mem_of_find_id c proxyID p hfind
    simp only [Option.map_some, Option.some.injEq]
    exact List.map_congr_left (fun r hr => by rw [h p hp hid r hr])

theorem ownedBy_iff (p : Proxy) (r : Rule) (call : Call) : ownedBy p r call = true ↔
    call.enabled = true ∧ call.proxyID = p.id ∧
      p.ruleList.find? (applicable call.metadata) = some r := by
  simp [ownedBy, and_assoc]

theorem bump_of_not_owned (n : Proxy → Rule → ℕ) (call : Call) (p : Proxy) (r : Rule)
    (h : ownedBy p r call = false) : bump n call p r = n p r := by
  simp [bump, h]

theorem tracks_bump_of_not_owned (lib : Library) (c : Config) (n : Proxy → Rule → ℕ) (e : Engine)
    (call : Call) (he : Tracks lib c n e)
    (h : ∀ p ∈ c.proxies, ∀ r ∈ p.ruleList, ownedBy p r call = false) :
    Tracks lib c (bump n call) e := by
  intro proxyID
  rw [he proxyID]
  exact statesAt_congr lib c _ _ proxyID (fun p hp _ r hr =>
    (bump_of_not_owned n call p r (h p hp r hr)).symm)

theorem tracks_insert (lib : Library) (c : Config) (n m : Proxy → Rule → ℕ) (e : Engine)
    (proxyID : String) (states : List RuleState) (he : Tracks lib c n e)
    (hs : statesAt lib c m proxyID = some states)
    (h : ∀ p ∈ c.proxies, p.id ≠ proxyID → ∀ r ∈ p.ruleList, n p r = m p r) :
    Tracks lib c m ⟨e.proxies.insert proxyID states⟩ := by
  intro k
  change (e.proxies.insert proxyID states).get? k = _
  rw [OrdMap.get?_insert]
  by_cases hk : k = proxyID
  · rw [if_pos hk, hk, hs]
  · rw [if_neg hk, he k]
    exact statesAt_congr lib c n m k (fun p hp hid => h p hp (fun hh => hk (hid.symm.trans hh)))

/-- The step lemma: a call on an engine that tracks the counts returns the result
for these counts and leaves an engine that tracks the bumped counts. -/
theorem decide_tracks (lib : Library) (c : Config) (hv : ConfigValid c) (n : Proxy → Rule → ℕ)
    (e : Engine) (call : Call) (he : Tracks lib c n e) :
    (e.decide lib call.proxyID call.metadata call.enabled).1 = resultAt lib c n call ∧
      Tracks lib c (bump n call) (e.decide lib call.proxyID call.metadata call.enabled).2 := by
  have hget := he call.proxyID
  unfold statesAt at hget
  unfold Engine.decide resultAt
  cases hfind : c.proxies.find? (fun p => p.id = call.proxyID) with
  | none =>
    rw [hfind, Option.map_none] at hget
    rw [hget]
    refine ⟨rfl, tracks_bump_of_not_owned lib c n e call he (fun p hp r _ => ?_)⟩
    rw [Bool.eq_false_iff]
    intro howned
    have hid := ((ownedBy_iff p r call).mp howned).2.1
    have hnone := List.find?_eq_none.mp hfind p hp
    simp [hid] at hnone
  | some p =>
    obtain ⟨hp, hid⟩ := mem_of_find_id c call.proxyID p hfind
    rw [hfind, Option.map_some] at hget
    rw [hget]
    have hother (q : Proxy) (_ : q ∈ c.proxies) (hq : q.id ≠ call.proxyID) (r : Rule)
        (_ : r ∈ q.ruleList) : n q r = bump n call q r := by
      refine (bump_of_not_owned n call q r ?_).symm
      simp [ownedBy, Ne.symm hq]
    by_cases hen : call.enabled = true
    · have howned (r : Rule) : ownedBy p r call =
          decide (p.ruleList.find? (applicable call.metadata) = some r) := by
        simp [ownedBy, hen, hid]
      simp only [hen, Bool.not_true, Bool.false_eq_true, if_false, if_true]
      rw [decideRules_map lib call.proxyID call.metadata _ (fun r => by simp [newRuleState])
        p.ruleList (nodup_rules c hv p hp)]
      cases hown : p.ruleList.find? (applicable call.metadata) with
      | none =>
        refine ⟨rfl, tracks_insert lib c n _ e _ _ he ?_ hother⟩
        rw [statesAt, hfind, Option.map_some, Option.some.injEq]
        refine List.map_congr_left (fun r _ => ?_)
        rw [bump_of_not_owned n call p r (by simp [howned, hown])]
      | some r =>
        refine ⟨rfl, tracks_insert lib c n _ e _ _ he ?_ hother⟩
        rw [statesAt, hfind, Option.map_some, Option.some.injEq]
        refine List.map_congr_left (fun q _ => ?_)
        by_cases hq : q = r
        · rw [if_pos hq, bump, howned, hown, hq, if_pos (by simp), rounds_succ]
        · rw [if_neg hq, bump_of_not_owned n call p q (by simp [howned, hown, Ne.symm hq])]
    · rw [Bool.not_eq_true] at hen
      simp only [hen, Bool.not_false, if_true, Bool.false_eq_true, if_false, true_and]
      refine tracks_bump_of_not_owned lib c n e call he (fun q _ r _ => ?_)
      simp [ownedBy, hen]

def owned (calls : List Call) (p : Proxy) (r : Rule) : ℕ := calls.countP (ownedBy p r)

theorem owned_append (calls : List Call) (call : Call) :
    owned (calls ++ [call]) = bump (owned calls) call := by
  funext p r
  simp [owned, bump, List.countP_append, List.countP_singleton]

/-- The run lemma: after any history the engine tracks the owned calls. -/
theorem runCalls_tracks (lib : Library) (c : Config) (hv : ConfigValid c) (calls : List Call) :
    Tracks lib c (owned calls) (runCalls lib ⟨engineProxies lib c⟩ calls).2 := by
  induction calls using List.reverseRecOn with
  | nil => exact tracks_new lib c hv
  | append_singleton calls call ih =>
    rw [runCalls, run_snoc, owned_append]
    exact (decide_tracks lib c hv (owned calls) _ call ih).2

theorem runCalls_snoc (lib : Library) (c : Config) (hv : ConfigValid c) (calls : List Call)
    (call : Call) : (runCalls lib ⟨engineProxies lib c⟩ (calls ++ [call])).1 =
      (runCalls lib ⟨engineProxies lib c⟩ calls).1 ++ [resultAt lib c (owned calls) call] := by
  have hstep := (decide_tracks lib c hv (owned calls) _ call (runCalls_tracks lib c hv calls)).1
  rw [← hstep, runCalls, run_snoc]

theorem decisionsOf_resultAt (lib : Library) (c : Config) (hv : ConfigValid c)
    (n : Proxy → Rule → ℕ) (call : Call) (p : Proxy) (hp : p ∈ c.proxies) (r : Rule)
    (hr : r ∈ p.ruleList) :
    decisionsOf p.id r.id [resultAt lib c n call] =
      if ownedBy p r call then
        [ownedDecision lib p.id (rounds lib (n p r) (newRuleState lib c.seed p.id r))]
      else [] := by
  have hname := hv.named p hp r hr
  unfold resultAt
  cases hfind : c.proxies.find? (fun q => q.id = call.proxyID) with
  | none =>
    have hne : call.proxyID ≠ p.id := by
      intro he
      rw [he, find_id_of_mem c hv p hp] at hfind
      cases hfind
    simp [decisionsOf, ownedBy, hne]
  | some q =>
    obtain ⟨hq, hqid⟩ := mem_of_find_id c call.proxyID q hfind
    by_cases hid : call.proxyID = p.id
    · have hqp : q = p := List.inj_on_of_nodup_map hv.proxyIDs hq hp (hqid.trans hid)
      subst hqp
      by_cases hen : call.enabled = true
      · simp only [hen, if_true]
        cases hown : q.ruleList.find? (applicable call.metadata) with
        | none => simp [decisionsOf, noDecision, ownedBy, hown, Ne.symm hname]
        | some s =>
          have hs := List.mem_of_find?_eq_some hown
          by_cases hsr : s = r
          · simp [decisionsOf, ownedDecision, ownedBy, hown, hen, hid, hsr, newRuleState]
          · have hsid : s.id ≠ r.id := fun he =>
              hsr (List.inj_on_of_nodup_map (hv.ruleIDs q hq) hs hr he)
            simp [decisionsOf, ownedDecision, ownedBy, hown, hsr, hsid, newRuleState]
      · rw [Bool.not_eq_true] at hen
        simp [decisionsOf, noDecision, ownedBy, hen, Ne.symm hname]
    · have hprox (d : Decision) (hd : d.proxyID = call.proxyID) :
          decisionsOf p.id r.id [.ok d] = [] := by simp [decisionsOf, hd, hid]
      have hfalse : ownedBy p r call = false := by simp [ownedBy, hid]
      rw [hfalse]
      simp only [Bool.false_eq_true, if_false]
      split
      · exact hprox _ rfl
      · exact hprox _ rfl

theorem decisionsOf_append (proxyID ruleID : String) (xs ys : List (Except String Decision)) :
    decisionsOf proxyID ruleID (xs ++ ys) =
      decisionsOf proxyID ruleID xs ++ decisionsOf proxyID ruleID ys := List.filterMap_append ..

theorem decisionsOf_runCalls (lib : Library) (c : Config) (hv : ConfigValid c) (calls : List Call)
    (p : Proxy) (hp : p ∈ c.proxies) (r : Rule) (hr : r ∈ p.ruleList) :
    decisionsOf p.id r.id (runCalls lib ⟨engineProxies lib c⟩ calls).1 =
      (List.range (owned calls p r)).map (fun n =>
        ownedDecision lib p.id (rounds lib n (newRuleState lib c.seed p.id r))) := by
  induction calls using List.reverseRecOn with
  | nil => rfl
  | append_singleton calls call ih =>
    rw [runCalls_snoc lib c hv, decisionsOf_append, ih, decisionsOf_resultAt lib c hv _ call p hp r hr,
      owned_append, bump]
    by_cases h : ownedBy p r call = true
    · simp only [h, if_true, List.range_succ, List.map_append, List.map_singleton]
    · simp [h]

end Faultline
