import Faultline.ConfigValidate
import Faultline.TCPTransfer

/-! The byte trigger of a TCP fault. A chunk never goes past the trigger, and the pump that
writes the last byte before it activates the fault before it writes again. -/
namespace Faultline.TCP

theorem Direction.name_inj {d d' : Direction} (h : d.name = d'.name) : d = d' := by
  cases d <;> cases d' <;> first | rfl | exact absurd h (by decide)

/-- A selected fault that waits for `n` bytes in a direction. -/
structure ByteTrigger (decision : Decision) (d : Direction) (n : ℕ) : Prop where
  selected : decision.selected = true
  action : decision.fault.action ≠ "delay_connect"
  timeless : decision.fault.afterDuration = none
  direction : decision.fault.triggerDirection = d.name
  after : ∃ k : Int64, decision.fault.afterBytes = some k ∧ k.toInt = n

theorem validateTCPRule_trigger {r r' : Rule} {path : String} {decision : Decision} {k : Int64}
    (h : validateTCPRule r path = .ok r') (hfault : decision.fault = r'.fault)
    (hselected : decision.selected = true) (hphase : decision.fault.phase = tcpOnTransfer)
    (hk : decision.fault.afterBytes = some k) :
    ∃ d, ByteTrigger decision d k.toInt.toNat ∧ decision.fault.triggerDirection = d.name := by
  simp only [validateTCPRule, bind_eq_ok, reject_eq_ok, exists_const, pure_eq_ok] at h
  obtain ⟨-, select, -, -, honly, hnonneg, hdirection, -, -, u, haction, rfl⟩ := h
  simp only at hfault
  rw [hfault] at hphase hk
  have htimeless : r.fault.afterDuration = none := by
    simpa [hk] using honly
  have hpos : 0 ≤ k.toInt := by
    have : ¬ k < 0 := by simpa [hk] using hnonneg
    rw [Int64.lt_iff_toInt_lt] at this
    simpa using this
  have hconnect : r.fault.action ≠ "delay_connect" := by
    intro he
    simp only [validateTCPAction, he, if_true, reject_eq_ok] at haction
    exact haction (.inl (by rw [hphase]; decide))
  have hname : ∃ d : Direction, r.fault.triggerDirection = d.name := by
    have htcp : tcpDirection r.fault.triggerDirection = true := by simpa [hk] using hdirection
    simp only [tcpDirection, Bool.or_eq_true, decide_eq_true_eq] at htcp
    rcases htcp with htcp | htcp
    · exact ⟨.clientToUpstream, htcp⟩
    · exact ⟨.upstreamToClient, htcp⟩
  obtain ⟨d, hd⟩ := hname
  refine ⟨d, ⟨hselected, ?_, ?_, ?_, k, ?_, ?_⟩, ?_⟩
  · rwa [hfault]
  · rwa [hfault]
  · rwa [hfault]
  · rwa [hfault]
  · omega
  · rwa [hfault]

/-- A chunk that is cut, being written or being counted ends at the trigger at the latest. -/
def Stage.Within (count n : ℕ) : Stage → Prop
  | .pace _ m => count + m ≤ n
  | .write _ m => count + m ≤ n
  | .add _ m _ => count + m ≤ n
  | _ => True

def Stage.Stopping : Stage → Prop
  | .wrote _ _ => True
  | .tail _ => True
  | .loop => True
  | .held => True
  | .done => True
  | _ => False

section Trigger
variable {s : Relay} {d : Direction} {n : ℕ}

theorem ByteTrigger.fault (h : ByteTrigger s.decision d n) : s.fault = some s.decision.fault := by
  simp [Relay.fault, h.selected, h.action]

theorem ByteTrigger.reachedBytes (h : ByteTrigger s.decision d n) (d' : Direction) (count : ℕ) :
    s.reachedBytes d' count = if d' = d ∧ n ≤ count then s.activate s.decision.fault else s := by
  obtain ⟨k, hk, hn⟩ := h.after
  have hiff : (s.decision.fault.triggerDirection = d'.name ∧ k.toInt ≤ count) ↔ (d' = d ∧ n ≤ count) := by
    rw [h.direction]
    constructor
    · rintro ⟨hname, hle⟩
      exact ⟨(Direction.name_inj hname).symm, by omega⟩
    · rintro ⟨rfl, hle⟩
      exact ⟨rfl, by omega⟩
  simp only [Relay.reachedBytes, h.fault, hk, hiff]

theorem ByteTrigger.chunk (h : ByteTrigger s.decision d n) (p : Pump) (hidle : s.active = false)
    (hcount : p.count < n) : p.count + s.chunk d p ≤ n := by
  obtain ⟨k, hk, hn⟩ := h.after
  have huntil : p.count + s.untilTrigger d p.count p.payload.length ≤ n := by
    simp only [Relay.untilTrigger, h.fault, hk, h.direction, hidle, and_self, if_true]
    split_ifs <;> omega
  unfold Relay.chunk
  simp only
  split_ifs <;> omega

@[simp] theorem activate_active (s : Relay) (f : Fault) : (s.activate f).active = true := by
  unfold Relay.activate
  split_ifs with h
  · exact h
  · rfl

def Pump.Reaches (p : Pump) (n : ℕ) : Prop :=
  ∃ last m failed, p.stage = .add last (m+1) failed ∧ n ≤ p.count + (m+1)

structure Rises (s s' : Relay) (now : Prop) : Prop where
  decision : s'.decision = s.decision
  event : s'.event = s.event
  active : s'.active = true ↔ s.active = true ∨ now
  applied : s.applied = s.active → s'.applied = s'.active
  closing : s'.active = true → s.active = false → s.decision.fault.action = "close_connection" →
    s'.closed = true
  closed : s.closed = true → s'.closed = true
  events : ∀ e ∈ s'.events, e ∈ s.events ∨ e.type = .faultApplied

theorem rises_refl (s : Relay) : Rises s s False where
  decision := rfl
  event := rfl
  active := by simp
  applied := id
  closing := by
    intro h h'
    rw [h'] at h
    cases h
  closed := id
  events := fun _ => .inl

theorem activate_rises (s : Relay) : Rises s (s.activate s.decision.fault) True := by
  unfold Relay.activate
  by_cases h : s.active = true
  · rw [if_pos h]
    refine ⟨rfl, rfl, by simp [h], id, ?_, id, fun _ => .inl⟩
    intro _ h'
    rw [h] at h'
    cases h'
  · rw [if_neg h]
    refine ⟨rfl, rfl, by simp, fun _ => rfl, ?_, ?_, ?_⟩
    · intro _ _ hclose
      simp [hclose]
    · intro hc
      simp [hc]
    · intro e he
      rcases List.mem_append.mp he with he | he
      · exact .inl he
      · rw [List.mem_singleton.mp he]
        exact .inr rfl

inductive Effect (s : Relay) (d : Direction) (n : ℕ) : Relay → Prop
  /-- A flag changes, or nothing. -/
  | kept {s'} (hpump : s'.pump = s.pump) (hphase : s'.phase = s.phase) (hr : Rises s s' False) :
      Effect s d n s'
  /-- The pumps start, after a trigger at zero bytes. -/
  | dialed {s'} (b : Bytes) (hb : s.phase = .dialing b) (hphase : s'.phase = .forwarding)
      (hpump : s'.pump = Function.update s.pump .clientToUpstream
        { s.pump .clientToUpstream with ahead := b })
      (hr : Rises s s' (n = 0)) : Effect s d n s'
  /-- A pump takes a step; that of the trigger direction may reach the trigger. -/
  | pumped {s'} (d' : Direction) (a : Answer) (hphase : s.phase = .forwarding)
      (hphase' : s'.phase = .forwarding)
      (hpump : s'.pump = Function.update s.pump d' (pumpStep s d' (s.pump d') a))
      (hr : Rises s s' (d' = d ∧ (s.pump d).Reaches n)) : Effect s d n s'
  /-- Serving ends. -/
  | finished (outcome : String) (now : ℕ)
      (hend : (∃ b, s.phase = .dialing b) ∨ s.phase = .forwarding ∧ ∀ d, (s.pump d).stage = .done) :
      Effect s d n (s.finish outcome now)

theorem forward_effect (h : ByteTrigger s.decision d n) {b : Bytes} (hb : s.phase = .dialing b) :
    Effect s d n (s.forward b) := by
  obtain ⟨k, hk, hn⟩ := h.after
  have hzero : s.decision.fault.afterDuration = none ∧ s.decision.fault.afterBytes.getD 0 = 0 ↔ n = 0 := by
    rw [hk, Option.getD_some]
    constructor
    · rintro ⟨-, rfl⟩
      simpa using hn.symm
    · intro h0
      refine ⟨h.timeless, ?_⟩
      rw [← Int64.toInt_inj, hn, h0]
      rfl
  unfold Relay.forward
  simp only [h.fault, hzero]
  by_cases h0 : n = 0
  · rw [if_pos h0]
    have hnoted := activate_noted { s with
      phase := .forwarding
      pump := Function.update s.pump .clientToUpstream
        { s.pump .clientToUpstream with ahead := b } } s.decision.fault
    have hrises := activate_rises { s with
      phase := .forwarding
      pump := Function.update s.pump .clientToUpstream
        { s.pump .clientToUpstream with ahead := b } }
    obtain ⟨h1, h2, h3, h4, h5, h6, h7⟩ := hrises
    exact .dialed b hb hnoted.phase hnoted.pump ⟨h1, h2, h3.trans (by simp [h0]), h4, h5, h6, h7⟩
  · rw [if_neg h0]
    obtain ⟨h1, h2, h3, h4, h5, h6, h7⟩ := rises_refl s
    exact .dialed b hb rfl rfl ⟨h1, h2, h3.trans (by simp [h0]), h4, h5, h6, h7⟩

theorem pump_effect (h : ByteTrigger s.decision d n) (hphase : s.phase = .forwarding) (d' : Direction)
    (a : Answer) : Effect s d n (relayStep s (.pump d' a)) := by
  obtain ⟨h1, h2, h3, h4, h5, h6, h7⟩ := rises_refl s
  simp only [relayStep, hphase, if_true]
  split
  · rename_i last m failed hstage
    have hcount : (pumpStep s d' (s.pump d') a).count = (s.pump d').count + (m+1) := by
      simp only [pumpStep, hstage]
    have htrigger : ByteTrigger ({ s with
        phase := .forwarding
        pump := Function.update s.pump d' (pumpStep s d' (s.pump d') a) } : Relay).decision d n := h
    rw [htrigger.reachedBytes, hcount]
    by_cases hreach : d' = d ∧ n ≤ (s.pump d').count + (m+1)
    · rw [if_pos hreach]
      have hnoted := activate_noted { s with
        phase := .forwarding
        pump := Function.update s.pump d' (pumpStep s d' (s.pump d') a) } s.decision.fault
      obtain ⟨g1, g2, g3, g4, g5, g6, g7⟩ := activate_rises { s with
        phase := .forwarding
        pump := Function.update s.pump d' (pumpStep s d' (s.pump d') a) }
      refine .pumped d' a hphase hnoted.phase hnoted.pump ⟨g1, g2, g3.trans ?_, g4, g5, g6, g7⟩
      obtain ⟨rfl, hle⟩ := hreach
      have : (s.pump d').Reaches n := ⟨last, m, failed, hstage, hle⟩
      simp [this]
    · rw [if_neg hreach]
      refine .pumped d' a hphase rfl rfl ⟨h1, h2, h3.trans ?_, h4, h5, h6, h7⟩
      have hnot : ¬ (d' = d ∧ (s.pump d).Reaches n) := by
        rintro ⟨rfl, last', m', failed', hstage', hle⟩
        rw [hstage] at hstage'
        cases hstage'
        exact hreach ⟨rfl, hle⟩
      simp [hnot]
  · rename_i hother
    refine .pumped d' a hphase rfl rfl ⟨h1, h2, h3.trans ?_, h4, h5, h6, h7⟩
    have hnot : ¬ (d' = d ∧ (s.pump d).Reaches n) := by
      rintro ⟨rfl, last', m', failed', hstage', -⟩
      exact hother _ _ _ hstage'
    simp [hnot]

/-- Without `delay_connect` there is no wait before the dial. -/
def Unwaiting (s : Relay) : Prop := ∀ b, s.phase ≠ .waiting b ∧ s.phase ≠ .full b

theorem relayStep_effect (h : ByteTrigger s.decision d n) (hwait : Unwaiting s) (i : Input) :
    Effect s d n (relayStep s i) := by
  have hflag (s' : Relay) (hpump : s'.pump = s.pump) (hphase : s'.phase = s.phase)
      (hdecision : s'.decision = s.decision) (hevent : s'.event = s.event)
      (hactive : s'.active = s.active) (happlied : s'.applied = s.applied)
      (hclosed : s.closed = true → s'.closed = true) (hevents : s'.events = s.events) :
      Effect s d n s' := by
    refine .kept hpump hphase ⟨hdecision, hevent, by simp [hactive], ?_, ?_, hclosed, ?_⟩
    · rw [hactive, happlied]
      exact id
    · intro h1 h2
      rw [hactive, h2] at h1
      cases h1
    · rw [hevents]
      exact fun _ => .inl
  have hstay : Effect s d n s := .kept rfl rfl (rises_refl s)
  cases i with
  | main a now =>
    simp only [relayStep, mainStep]
    split
    · rename_i b hb
      exact absurd hb (hwait b).1
    · rename_i b hb
      exact absurd hb (hwait b).2
    · rename_i b hb
      split_ifs
      · exact .finished _ _ (.inl ⟨b, hb⟩)
      · exact forward_effect h hb
    · rename_i hphase
      by_cases hboth : (s.pump .clientToUpstream).stage = .done ∧ (s.pump .upstreamToClient).stage = .done
      · rw [if_pos hboth]
        refine .finished _ _ (.inr ⟨hphase, ?_⟩)
        intro d'
        cases d'
        · exact hboth.1
        · exact hboth.2
      · rw [if_neg hboth]
        exact hstay
    · exact hstay
  | pump d' a =>
    by_cases hphase : s.phase = .forwarding
    · exact pump_effect h hphase d' a
    · simp only [relayStep, hphase, if_false]
      exact hstay
  | delayOver => exact hflag _ rfl rfl rfl rfl rfl rfl id rfl
  | timer =>
    -- a fault with a byte trigger has no timer
    simp only [relayStep, h.fault, h.timeless, Option.isSome_none, Bool.false_eq_true, and_false, if_false]
    exact hstay
  | holdTimer =>
    simp only [relayStep]
    split_ifs
    · exact hflag _ rfl rfl rfl rfl rfl rfl (fun _ => rfl) rfl
    · exact hstay
  | cancel => exact hflag _ rfl rfl rfl rfl rfl rfl (fun _ => rfl) rfl

/-- The invariant of a connection whose fault waits for `n` bytes in direction `d`. -/
structure Triggered (s : Relay) (d : Direction) (n : ℕ) : Prop where
  trigger : ByteTrigger s.decision d n
  unwaiting : Unwaiting s
  selected : s.event.selected = true
  start : ∀ b, s.phase = .dialing b → s.active = false
  within : s.active = false → s.phase = .forwarding →
    (s.pump d).count < n ∧ (s.pump d).stage.Within (s.pump d).count n
  below : s.active = false → (s.pump d).written.length ≤ n
  reached : s.active = true → n ≤ (s.pump d).written.length
  applied : s.applied = s.active
  recorded : ∀ e ∈ s.events, e.type = .flowFinished →
    (∃ o, s.phase = .over o) ∧ e.applied = s.active ∧ e.notReached = !s.active

theorem pumpStep_within (h : ByteTrigger s.decision d n) (hidle : s.active = false) {p : Pump} (a : Answer)
    (hcount : p.count < n) (hwithin : p.stage.Within p.count n) (hreach : ¬ p.Reaches n) :
    (pumpStep s d p a).count < n ∧ (pumpStep s d p a).stage.Within (pumpStep s d p a).count n := by
  unfold pumpStep
  cases hstage : p.stage with
  | loop =>
    refine ⟨hcount, ?_⟩
    simp only
    split_ifs <;> trivial
  | held => exact ⟨hcount, trivial⟩
  | read =>
    rcases read_cases p s.closed a with ⟨heq, -⟩ | ⟨ahead, rest, payload, last, heq, -, -, -⟩
    · rw [heq]
      exact ⟨hcount, trivial⟩
    · rw [heq]
      exact ⟨hcount, trivial⟩
  | check last =>
    simp only
    split_ifs <;> exact ⟨hcount, trivial⟩
  | cut last => exact ⟨hcount, h.chunk p hidle hcount⟩
  | pace last m =>
    rw [hstage] at hwithin
    refine ⟨hcount, ?_⟩
    simp only
    split_ifs
    · trivial
    · exact hwithin
  | write last m =>
    rw [hstage] at hwithin
    refine ⟨hcount, ?_⟩
    change p.count + m ≤ n at hwithin
    change p.count + min a.size m ≤ n
    omega
  | add last m failed =>
    refine ⟨?_, trivial⟩
    change p.count + m < n
    -- a write of nothing keeps the count, any other one would have reached the trigger
    cases m with
    | zero => exact hcount
    | succ m =>
      by_contra hle
      exact hreach ⟨last, m, failed, hstage, by omega⟩
  | wrote last failed =>
    simp only
    split_ifs <;> exact ⟨hcount, trivial⟩
  | tail last =>
    refine ⟨hcount, ?_⟩
    simp only
    split_ifs <;> trivial
  | done =>
    rw [hstage]
    exact ⟨hcount, trivial⟩

theorem Stage.Within.pending {stage : Stage} {count : ℕ} (h : stage.Within count n) (hcount : count ≤ n) :
    count + stage.pending ≤ n := by
  cases stage with
  | add last m failed => exact h
  | _ => exact hcount

theorem Pump.Reaches.step {p : Pump} (h : p.Reaches n) (hwithin : p.stage.Within p.count n) (a : Answer) :
    (pumpStep s d p a).count = n ∧ (pumpStep s d p a).stage.pending = 0 := by
  obtain ⟨last, m, failed, hstage, hle⟩ := h
  rw [hstage] at hwithin
  change p.count + (m+1) ≤ n at hwithin
  simp only [pumpStep, hstage, Stage.pending, and_true]
  omega

section Step
variable {stream : Direction → Bytes}

theorem carried_dialing {b : Bytes} (hc : ∀ d, Carried s d (stream d)) (hb : s.phase = .dialing b)
    (d' : Direction) :
    (s.pump d').written = [] ∧ (s.pump d').count = 0 ∧ (s.pump d').stage = .loop := by
  obtain ⟨rest, hp, -⟩ := (hc d').before b (by rw [hb]; rfl)
  rw [hp]
  exact ⟨rfl, rfl, rfl⟩

theorem update_ahead {s' : Relay} {b : Bytes} (hpump : s'.pump = Function.update s.pump .clientToUpstream
      { s.pump .clientToUpstream with ahead := b }) (d' : Direction) :
    (s'.pump d').written = (s.pump d').written ∧ (s'.pump d').count = (s.pump d').count ∧
      (s'.pump d').stage = (s.pump d').stage := by
  rw [hpump]
  cases d' <;> simp

/-- The step that activates the fault is the one after exactly `n` bytes. -/
theorem effect_exact {s' : Relay} (h : Triggered s d n) (hc : ∀ d, Carried s d (stream d))
    (hc' : ∀ d, Carried s' d (stream d)) (he : Effect s d n s') (hidle : s.active = false)
    (hactive : s'.active = true) : (s'.pump d).written.length = n ∧
      (s'.phase = .forwarding ∧ (s'.pump d).stage.Stopping) ∧ (n = 0 → ∀ d', (s'.pump d').written = []) := by
  cases he with
  | kept hpump hphase hr =>
    have := hr.active.mp hactive
    rw [hidle] at this
    simp at this
  | dialed b hb hphase hpump hr =>
    have hn : n = 0 := by
      have := hr.active.mp hactive
      rw [hidle] at this
      simpa using this
    have hempty : ∀ d', (s'.pump d').written = [] := by
      intro d'
      rw [(update_ahead hpump d').1]
      exact (carried_dialing hc hb _).1
    refine ⟨by rw [hempty d, hn]; rfl, ⟨hphase, ?_⟩, fun _ => hempty⟩
    rw [(update_ahead hpump d).2.2, (carried_dialing hc hb _).2.2]
    trivial
  | pumped d' a hphase hphase' hpump hr =>
    have hreach : d' = d ∧ (s.pump d).Reaches n := by
      have := hr.active.mp hactive
      rw [hidle] at this
      simpa using this
    obtain ⟨rfl, hreach⟩ := hreach
    obtain ⟨hcount, hwithin⟩ := h.within hidle hphase
    obtain ⟨hn, hpending⟩ := hreach.step (s := s) (d := d') hwithin a
    have hcounted := ((hc' d').during hphase').counted
    rw [hpump, Function.update_self, hn, hpending] at hcounted
    refine ⟨?_, ⟨hphase', ?_⟩, fun h0 => absurd hcount (by omega)⟩
    · rw [hpump, Function.update_self]
      omega
    · rw [hpump, Function.update_self]
      obtain ⟨last, m, failed, hstage, -⟩ := hreach
      simp only [pumpStep, hstage]
      trivial
  | finished outcome now hend =>
    change s.active = true at hactive
    rw [hidle] at hactive
    cases hactive

/-- The bytes written while the pumps run stay at most `n` as long as the fault is idle. -/
theorem within_below {s' : Relay} (hc' : Carried s' d (stream d)) (hphase : s'.phase = .forwarding)
    (h : (s'.pump d).count < n ∧ (s'.pump d).stage.Within (s'.pump d).count n) :
    (s'.pump d).written.length ≤ n := by
  rw [← (hc'.during hphase).counted]
  exact h.2.pending h.1.le

theorem pumpStep_written (s : Relay) (d : Direction) (p : Pump) (a : Answer) :
    p.written.length ≤ (pumpStep s d p a).written.length := by
  unfold pumpStep
  cases p.stage with
  | read =>
    rcases read_cases p s.closed a with ⟨heq, -⟩ | ⟨ahead, rest, payload, last, heq, -, -, -⟩
    · rw [heq]
    · rw [heq]
  | write last m => simp
  | check last =>
    simp only
    split_ifs <;> exact le_rfl
  | wrote last failed =>
    simp only
    split_ifs <;> exact le_rfl
  | _ => exact le_rfl

theorem triggered_step (i : Input) (h : Triggered s d n) (hc : ∀ d, Carried s d (stream d)) :
    Triggered (relayStep s i) d n := by
  have he := relayStep_effect h.trigger h.unwaiting i
  have hc' : ∀ d, Carried (relayStep s i) d (stream d) := fun d => carried_step i (hc d)
  generalize relayStep s i = s' at he hc'
  have hexact := effect_exact h hc hc' he
  -- an end that is recorded stays the one recorded, unless this step records it
  have hfinished (hr : ∀ e ∈ s'.events, e ∈ s.events ∨ e.type = .faultApplied)
      (hphase : ∀ o, s.phase = .over o → s'.phase = .over o) (hactive : (∃ o, s.phase = .over o) → s'.active = s.active) :
      ∀ e ∈ s'.events, e.type = .flowFinished →
        (∃ o, s'.phase = .over o) ∧ e.applied = s'.active ∧ e.notReached = !s'.active := by
    intro e hmem htype
    rcases hr e hmem with hmem | hother
    · obtain ⟨⟨o, ho⟩, h1, h2⟩ := h.recorded e hmem htype
      rw [hactive ⟨o, ho⟩]
      exact ⟨⟨o, hphase o ho⟩, h1, h2⟩
    · rw [htype] at hother
      cases hother
  cases he with
  | kept hpump hphase hr =>
    have hactive : s'.active = s.active := by
      rw [Bool.eq_iff_iff, hr.active]
      simp
    refine ⟨by rw [hr.decision]; exact h.trigger, ?_, by rw [hr.event]; exact h.selected, ?_, ?_, ?_, ?_,
      hr.applied h.applied, hfinished hr.events (fun o ho => hphase.trans ho) (fun _ => hactive)⟩
    · intro b
      rw [hphase]
      exact h.unwaiting b
    · rw [hphase, hactive]
      exact h.start
    · rw [hphase, hactive, hpump]
      exact h.within
    · rw [hactive, hpump]
      exact h.below
    · rw [hactive, hpump]
      exact h.reached
  | dialed b hb hphase hpump hr =>
    have hidle := h.start b hb
    obtain ⟨hw, hcount, hstage⟩ := carried_dialing hc hb d
    obtain ⟨hw', hcount', hstage'⟩ := update_ahead hpump d
    have hwithin : s'.active = false →
        (s'.pump d).count < n ∧ (s'.pump d).stage.Within (s'.pump d).count n := by
      intro hnot
      have hpos : n ≠ 0 := fun h0 => by
        rw [hr.active.mpr (.inr h0)] at hnot
        cases hnot
      rw [hcount', hcount, hstage', hstage]
      exact ⟨by omega, trivial⟩
    refine ⟨by rw [hr.decision]; exact h.trigger, fun c => by simp [hphase], by rw [hr.event]; exact h.selected,
      fun c hc => by simp [hphase] at hc, fun hnot _ => hwithin hnot, ?_, ?_, hr.applied h.applied,
      hfinished hr.events (fun o ho => by simp [hb] at ho) (fun ⟨o, ho⟩ => by simp [hb] at ho)⟩
    · intro _
      rw [hw', hw]
      simp
    · intro hactive
      exact (hexact hidle hactive).1.ge
  | pumped d' a hphase hphase' hpump hr =>
    have hwithin : s'.active = false →
        (s'.pump d).count < n ∧ (s'.pump d).stage.Within (s'.pump d).count n := by
      intro hnot
      have hidle : s.active = false := by
        rw [← Bool.not_eq_true]
        intro hh
        rw [hr.active.mpr (.inl hh)] at hnot
        cases hnot
      obtain ⟨hcount, hstage⟩ := h.within hidle hphase
      rw [hpump]
      by_cases hd : d = d'
      · subst hd
        rw [Function.update_self]
        refine pumpStep_within h.trigger hidle a hcount hstage (fun hreach => ?_)
        rw [hr.active.mpr (.inr ⟨rfl, hreach⟩)] at hnot
        cases hnot
      · rw [Function.update_of_ne hd]
        exact ⟨hcount, hstage⟩
    refine ⟨by rw [hr.decision]; exact h.trigger, fun c => by simp [hphase'], by rw [hr.event]; exact h.selected,
      fun c hc => by simp [hphase'] at hc, fun hnot _ => hwithin hnot,
      fun hnot => within_below (hc' d) hphase' (hwithin hnot), ?_, hr.applied h.applied,
      hfinished hr.events (fun o ho => by simp [hphase] at ho) (fun ⟨o, ho⟩ => by simp [hphase] at ho)⟩
    intro hactive
    by_cases hbefore : s.active = true
    · have hgrow : (s.pump d).written.length ≤ (s'.pump d).written.length := by
        rw [hpump]
        by_cases hd : d = d'
        · subst hd
          rw [Function.update_self]
          exact pumpStep_written s d _ a
        · rw [Function.update_of_ne hd]
      exact (h.reached hbefore).trans hgrow
    · exact (hexact (by simpa using hbefore) hactive).1.ge
  | finished outcome now hend =>
    refine ⟨h.trigger, fun c => by simp [Relay.finish, Relay.record], h.selected,
      fun c hc => by simp [Relay.finish, Relay.record] at hc,
      fun _ hf => by simp [Relay.finish, Relay.record] at hf, h.below, h.reached, h.applied, ?_⟩
    have hopen : ∀ o, s.phase ≠ .over o := by
      rcases hend with ⟨b, hb⟩ | ⟨hf, -⟩
      · simp [hb]
      · simp [hf]
    intro e hmem htype
    rcases List.mem_append.mp hmem with hmem | hmem
    · obtain ⟨⟨o, ho⟩, -⟩ := h.recorded e hmem htype
      exact absurd ho (hopen o)
    · rw [List.mem_singleton.mp hmem]
      refine ⟨⟨outcome, rfl⟩, h.applied, ?_⟩
      change (s.event.selected && !s.applied) = !s.active
      rw [h.selected, h.applied, Bool.true_and]

end Step

end Trigger

end Faultline.TCP
