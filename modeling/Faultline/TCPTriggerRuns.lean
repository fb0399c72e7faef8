import Faultline.TCPTrigger

/-! What a fault with a byte trigger lets through, over whole runs of a connection. -/
namespace Faultline.TCP

section Step
variable {s : Relay} {d : Direction} {n : ℕ} {stream : Direction → Bytes}

theorem pumpStep_stopping {p : Pump} (a : Answer) (hblocked : s.blocked d = true) (h : p.stage.Stopping) :
    (pumpStep s d p a).stage.Stopping ∧ (pumpStep s d p a).written = p.written := by
  unfold pumpStep
  cases hstage : p.stage with
  | loop =>
    simp only [hblocked, if_true]
    exact ⟨trivial, trivial⟩
  | held => exact ⟨trivial, rfl⟩
  | wrote last failed =>
    simp only [hblocked, if_true]
    split_ifs <;> exact ⟨trivial, rfl⟩
  | tail last =>
    refine ⟨?_, rfl⟩
    simp only
    split_ifs <;> trivial
  | done => exact ⟨h, rfl⟩
  | _ =>
    rw [hstage] at h
    exact h.elim

/-- A hold in the direction of its trigger lets exactly `n` bytes through. -/
def Halted (s : Relay) (d : Direction) (n : ℕ) : Prop := s.active = true →
  (s.pump d).written.length = n ∧ (s.phase = .forwarding → (s.pump d).stage.Stopping)

theorem halted_step (i : Input) (h : Triggered s d n) (hc : ∀ d, Carried s d (stream d))
    (hhold : s.decision.fault.action = "hold") (hdirection : s.decision.fault.direction = d.name)
    (hh : Halted s d n) : Halted (relayStep s i) d n := by
  have he := relayStep_effect h.trigger h.unwaiting i
  have hc' : ∀ d, Carried (relayStep s i) d (stream d) := fun d => carried_step i (hc d)
  generalize relayStep s i = s' at he hc'
  intro hactive
  by_cases hbefore : s.active = true
  · obtain ⟨hlen, hstop⟩ := hh hbefore
    have hblocked : s.blocked d = true := by
      simp [Relay.blocked, h.trigger.fault, hbefore, hhold, hdirection]
    cases he with
    | kept hpump hphase hr =>
      rw [hpump, hphase]
      exact ⟨hlen, hstop⟩
    | dialed b hb hphase hpump hr =>
      rw [h.start b hb] at hbefore
      cases hbefore
    | pumped d' a hphase hphase' hpump hr =>
      rw [hpump]
      by_cases hd : d = d'
      · subst hd
        obtain ⟨h1, h2⟩ := pumpStep_stopping a hblocked (hstop hphase)
        rw [Function.update_self, h2]
        exact ⟨hlen, fun _ => h1⟩
      · rw [Function.update_of_ne hd]
        exact ⟨hlen, fun _ => hstop hphase⟩
    | finished outcome now hend => exact ⟨hlen, fun hf => by simp [Relay.finish, Relay.record] at hf⟩
  · obtain ⟨h1, h2, -⟩ := effect_exact h hc hc' he (by simpa using hbefore) hactive
    exact ⟨h1, fun _ => h2.2⟩

/-- An input under which a write on a connection that `closeBoth` has closed fails. -/
def Input.ClosedFails (s : Relay) : Input → Prop
  | .pump d a => s.active = true → s.decision.fault.action = "close_connection" →
      ∀ last m, (s.pump d).stage = .write last m → a.fails = true ∧ a.size = 0
  | _ => True

theorem closed_step (i : Input) (h : Triggered s d n) (hc : ∀ d, Carried s d (stream d))
    (hclose : s.decision.fault.action = "close_connection") (hi : i.ClosedFails s)
    (hh : s.active = true → (s.pump d).written.length = n) (hactive : (relayStep s i).active = true) :
    ((relayStep s i).pump d).written.length = n := by
  have hc' : ∀ d, Carried (relayStep s i) d (stream d) := fun d => carried_step i (hc d)
  by_cases hbefore : s.active = true
  · have hlen := hh hbefore
    have hkept (s' : Relay) (hpump : s'.pump = s.pump) : (s'.pump d).written.length = n := by
      rw [hpump]
      exact hlen
    cases i with
    | pump d' a =>
      by_cases hphase : s.phase = .forwarding
      · rw [(relayStep_pump a hphase).1]
        by_cases hd : d = d'
        · subst hd
          rw [Function.update_self]
          -- only a write adds bytes, and a write fails here
          cases hstage : (s.pump d).stage with
          | write last m =>
            obtain ⟨-, hsize⟩ := hi hbefore hclose last m hstage
            simp [pumpStep, hstage, hsize, hlen]
          | read =>
            rcases read_cases (s.pump d) s.closed a with ⟨heq, -⟩ | ⟨_, _, _, _, heq, -, -, -⟩
            · simp [pumpStep, hstage, heq, hlen]
            · simp [pumpStep, hstage, heq, hlen]
          | check last =>
            simp only [pumpStep, hstage]
            split_ifs <;> exact hlen
          | wrote last failed =>
            simp only [pumpStep, hstage]
            split_ifs <;> exact hlen
          | _ => simp [pumpStep, hstage, hlen]
        · rw [Function.update_of_ne hd]
          exact hlen
      · simp only [relayStep, hphase, if_false]
        exact hlen
    | main a now =>
      have he := relayStep_effect h.trigger h.unwaiting (.main a now)
      have hnot : ∀ b, s.phase ≠ .dialing b := by
        intro b hb
        rw [h.start b hb] at hbefore
        cases hbefore
      simp only [relayStep, mainStep] at he ⊢
      split
      · rename_i b hb
        exact absurd hb (h.unwaiting b).1
      · rename_i b hb
        exact absurd hb (h.unwaiting b).2
      · rename_i b hb
        exact absurd hb (hnot b)
      · split_ifs <;> exact hlen
      · exact hlen
    | delayOver => exact hkept _ (flags_noted s).1.pump
    | timer => exact hkept _ (flags_noted s).2.1.pump
    | holdTimer => exact hkept _ (flags_noted s).2.2.1.pump
    | cancel => exact hkept _ (flags_noted s).2.2.2.pump
  · exact (effect_exact h hc hc' (relayStep_effect h.trigger h.unwaiting i) (by simpa using hbefore) hactive).1

end Step

section Run
variable {s : Relay} {d : Direction} {n : ℕ} {stream : Direction → Bytes}

theorem triggered_relay (h : Triggered s d n) (hc : ∀ d, Carried s d (stream d)) (inputs : List Input) :
    Triggered (relay s inputs) d n :=
  (run_invariant _ (fun s => Triggered s d n ∧ ∀ d, Carried s d (stream d))
    (fun _ i hs => ⟨triggered_step i hs.1 hs.2, fun d => carried_step i (hs.2 d)⟩) s ⟨h, hc⟩ inputs).1

theorem relay_decision (s : Relay) (inputs : List Input) : (relay s inputs).decision = s.decision :=
  run_invariant _ (fun s' => s'.decision = s.decision)
    (fun s' i hs => (moves_advances (relayStep_moves s' i)).decision.trans hs) s rfl inputs

theorem halted_relay (h : Triggered s d n) (hc : ∀ d, Carried s d (stream d)) (hstart : s.active = false)
    (hhold : s.decision.fault.action = "hold") (hdirection : s.decision.fault.direction = d.name)
    (inputs : List Input) : Halted (relay s inputs) d n := by
  induction inputs using List.reverseRecOn with
  | nil =>
    intro hactive
    rw [show (relay s []).active = s.active from rfl, hstart] at hactive
    cases hactive
  | append_singleton inputs i ih =>
    rw [relay_snoc]
    have hdecision := relay_decision s inputs
    exact halted_step i (triggered_relay h hc inputs) (fun d => carried_relay (hc d) inputs)
      (by rw [hdecision]; exact hhold) (by rw [hdecision]; exact hdirection) ih

/-- Every write on a closed connection fails in a run. -/
def ClosedWritesFail (s : Relay) (inputs : List Input) : Prop :=
  ∀ (k : ℕ) (i : Input), inputs[k]? = some i → i.ClosedFails (relay s (inputs.take k))

theorem closed_relay (h : Triggered s d n) (hc : ∀ d, Carried s d (stream d)) (hstart : s.active = false)
    (hclose : s.decision.fault.action = "close_connection") (inputs : List Input)
    (hfail : ClosedWritesFail s inputs) (hactive : (relay s inputs).active = true) :
    ((relay s inputs).pump d).written.length = n := by
  induction inputs using List.reverseRecOn with
  | nil =>
    rw [show (relay s []).active = s.active from rfl, hstart] at hactive
    cases hactive
  | append_singleton inputs i ih =>
    rw [relay_snoc] at hactive ⊢
    have hprev : ClosedWritesFail s inputs := by
      intro k j hj
      have hlt : k < inputs.length := (List.getElem?_eq_some_iff.mp hj).1
      have := hfail k j (by rw [List.getElem?_append_left hlt, hj])
      rwa [List.take_append_of_le_length hlt.le] at this
    have hlast : i.ClosedFails (relay s inputs) := by
      have := hfail inputs.length i (by simp)
      rwa [List.take_append_of_le_length le_rfl, List.take_length] at this
    exact closed_step i (triggered_relay h hc inputs) (fun d => carried_relay (hc d) inputs)
      (by rw [relay_decision]; exact hclose) hlast (ih hprev) hactive

end Run

/-- What holds of every run of a connection whose fault waits for `n` bytes in a direction. -/
structure TriggerLaw (s : Relay) (d : Direction) (n : ℕ) (inputs : List Input) : Prop where
  /-- The input that activates the fault comes after exactly `n` bytes. -/
  exactly : ∀ k i, inputs[k]? = some i → (relay s (inputs.take k)).active = false →
    (relay s (inputs.take (k+1))).active = true →
    ((relay s (inputs.take (k+1))).pump d).written.length = n ∧
      (n = 0 → ∀ d', ((relay s (inputs.take (k+1))).pump d').written = [])
  /-- Until then there are at most `n` bytes, and with the `n`-th one written the next step
  of the pump activates the fault. -/
  below : (relay s inputs).active = false → ((relay s inputs).pump d).written.length ≤ n
  due : (relay s inputs).active = false → (relay s inputs).phase = .forwarding →
    ((relay s inputs).pump d).written.length = n →
    ∀ a, (relayStep (relay s inputs) (.pump d a)).active = true
  reached : (relay s inputs).active = true → n ≤ ((relay s inputs).pump d).written.length
  /-- What a fault that ends the transfer lets through. -/
  closed : s.decision.fault.action = "close_connection" → ClosedWritesFail s inputs →
    (relay s inputs).active = true → ((relay s inputs).pump d).written.length = n
  held : s.decision.fault.action = "hold" → s.decision.fault.direction = d.name →
    (relay s inputs).active = true → ((relay s inputs).pump d).written.length = n
  /-- A flow that ends before the trigger is recorded as not reached. -/
  short : ∀ e ∈ (relay s inputs).events, e.type = .flowFinished →
    ((relay s inputs).pump d).written.length < n → e.applied = false ∧ e.notReached = true

/-- When all bytes up to the trigger are written, the pump is about to count the last of them. -/
theorem triggered_due {s : Relay} {d : Direction} {n : ℕ} {stream : Bytes} (h : Triggered s d n)
    (hc : Carried s d stream) (hidle : s.active = false) (hphase : s.phase = .forwarding)
    (hlen : (s.pump d).written.length = n) (a : Answer) : (relayStep s (.pump d a)).active = true := by
  obtain ⟨hcount, hwithin⟩ := h.within hidle hphase
  have hcounted := (hc.during hphase).counted
  have hreach : (s.pump d).Reaches n := by
    cases hstage : (s.pump d).stage with
    | add last m failed =>
      rw [hstage] at hcounted
      change (s.pump d).count + m = _ at hcounted
      cases m with
      | zero => omega
      | succ m => exact ⟨last, m, failed, hstage, by omega⟩
    | _ =>
      rw [hstage] at hcounted
      change (s.pump d).count + 0 = _ at hcounted
      omega
  obtain ⟨last, m, failed, hstage, hle⟩ := hreach
  have hpump : pumpStep s d (s.pump d) a = { s.pump d with
      count := (s.pump d).count + (m+1), stage := .wrote last failed } := by
    simp only [pumpStep, hstage]
  simp only [relayStep, hphase, hstage, hpump, if_true]
  rw [ByteTrigger.reachedBytes (s := { s with
      phase := .forwarding
      pump := Function.update s.pump d { s.pump d with
        count := (s.pump d).count + (m+1), stage := .wrote last failed } }) h.trigger,
    if_pos ⟨rfl, hle⟩, activate_active]

theorem trigger_law (r r' : Rule) (path : String) (hrule : validateTCPRule r path = .ok r')
    (decision : Decision) (hfault : decision.fault = r'.fault) (hselected : decision.selected = true)
    (hphase : r'.fault.phase = tcpOnTransfer) (k : Int64) (hk : r'.fault.afterBytes = some k)
    (d : Direction) (hd : r'.fault.triggerDirection = d.name)
    (info : Info) (flowID proxyID : String) (now : ℕ) (client upstream : Bytes) (inputs : List Input) :
    0 ≤ k.toInt ∧ TriggerLaw (.start decision info flowID proxyID now client upstream) d k.toInt.toNat inputs := by
  obtain ⟨d', htrigger, hname⟩ := validateTCPRule_trigger hrule hfault hselected
    (by rw [hfault]; exact hphase) (by rw [hfault]; exact hk)
  rw [hfault, hd] at hname
  cases Direction.name_inj hname
  have hpos : 0 ≤ k.toInt := by
    obtain ⟨k', hk', hn⟩ := htrigger.after
    rw [hfault, hk] at hk'
    cases hk'
    omega
  have hc := carried_start decision info flowID proxyID now client upstream
  have hstart : Triggered (.start decision info flowID proxyID now client upstream) d k.toInt.toNat := by
    have hdial : (Relay.start decision info flowID proxyID now client upstream).phase = .dialing [] := by
      simp [Relay.start, htrigger.action]
    refine ⟨htrigger, fun b => by simp [hdial], hselected, fun _ _ => rfl, fun _ hf => by simp [hdial] at hf,
      ?_, fun h => (by cases h), rfl, ?_⟩
    · intro _
      cases d <;> simp [Relay.start, Pump.start]
    · intro e hmem htype
      simp only [Relay.start, List.mem_cons, List.not_mem_nil, or_false] at hmem
      rcases hmem with rfl | rfl
      · cases htype
      · cases htype
  have hidle : (Relay.start decision info flowID proxyID now client upstream).active = false := rfl
  generalize Relay.start decision info flowID proxyID now client upstream = s at hc hstart hidle
  have hrun := triggered_relay hstart hc inputs
  refine ⟨hpos, ?_, hrun.below, ?_, hrun.reached, ?_, ?_, ?_⟩
  · intro j i hi hbefore hafter
    have hstep : relay s (inputs.take (j+1)) = relayStep (relay s (inputs.take j)) i :=
      run_take_succ _ s inputs j i hi
    rw [hstep] at hafter ⊢
    have ht := triggered_relay hstart hc (inputs.take j)
    have hcj : ∀ d, Carried (relay s (inputs.take j)) d (streams client upstream d) :=
      fun d => carried_relay (hc d) _
    obtain ⟨h1, -, h2⟩ := effect_exact ht hcj (fun d => carried_step i (hcj d))
      (relayStep_effect ht.trigger ht.unwaiting i) hbefore hafter
    exact ⟨h1, h2⟩
  · intro hnot hforward hlen a
    exact triggered_due hrun (carried_relay (hc d) inputs) hnot hforward hlen a
  · exact fun hclose hfail hactive => closed_relay hstart hc hidle hclose inputs hfail hactive
  · exact fun hhold hdirection hactive => (halted_relay hstart hc hidle hhold hdirection inputs hactive).1
  · intro e hmem htype hless
    obtain ⟨-, h1, h2⟩ := hrun.recorded e hmem htype
    -- an active fault would have let all bytes up to the trigger through
    have hnot : (relay s inputs).active = false := by
      rw [← Bool.not_eq_true]
      intro hactive
      exact absurd (hrun.reached hactive) (by omega)
    rw [h1, h2, hnot]
    exact ⟨rfl, rfl⟩

def sampleHoldRule : Rule :=
  { Rule.zero with
    id := "cut"
    enabled := true
    select := { Selector.zero with nth := some 1 }
    fault := { Fault.zero with
      phase := "on_transfer"
      action := "hold"
      direction := "client_to_upstream"
      maxDuration := some 1000000000
      afterBytes := some 3
      triggerDirection := "client_to_upstream" } }

def sampleHoldDecision : Decision := ⟨"tcp", "cut", 1, true, sampleHoldRule.select, sampleHoldRule.fault⟩

def sampleHoldInputs : List Input :=
  .main ⟨0, false, false⟩ 1 :: List.replicate 7 (.pump .clientToUpstream ⟨5, false, false⟩)

theorem trigger_law_hold :
    validateTCPRule sampleHoldRule "proxies[0].rules[0]" = .ok sampleHoldRule ∧
      (relay (.start sampleHoldDecision ⟨"run", 1, true, 0, 0, 0⟩ "flow" "tcp" 0 (bytesOf "hello") [])
        sampleHoldInputs).active = true ∧
      ((relay (.start sampleHoldDecision ⟨"run", 1, true, 0, 0, 0⟩ "flow" "tcp" 0 (bytesOf "hello") [])
        sampleHoldInputs).pump .clientToUpstream).written = bytesOf "hel" ∧
      TriggerLaw (.start sampleHoldDecision ⟨"run", 1, true, 0, 0, 0⟩ "flow" "tcp" 0 (bytesOf "hello") [])
        .clientToUpstream 3 sampleHoldInputs := by
  have hrule : validateTCPRule sampleHoldRule "proxies[0].rules[0]" = .ok sampleHoldRule := by
    decide +kernel
  exact ⟨hrule, by decide +kernel, by decide +kernel,
    (trigger_law sampleHoldRule sampleHoldRule _ hrule sampleHoldDecision rfl rfl rfl 3 rfl .clientToUpstream
      rfl ⟨"run", 1, true, 0, 0, 0⟩ "flow" "tcp" 0 (bytesOf "hello") [] sampleHoldInputs).2⟩

end Faultline.TCP
