import Faultline.TCPOutcome
import Faultline.TCPTriggerRuns

/-! A hold stops the direction it names. Its pump looks at the fault at three points of its loop; a
write that is already past them may still happen, and no other one. -/
namespace Faultline.TCP

/-- A pump at this stage may write before it looks at the fault again. -/
def Stage.writing : Stage → Bool
  | .cut _ | .pace _ _ | .write _ _ => true
  | _ => false

def Stage.writes : Stage → Bool
  | .write _ _ => true
  | _ => false

def Stage.reads : Stage → Bool
  | .read => true
  | _ => false

/-- The pump asks `blocked`. -/
def Stage.polls : Stage → Bool
  | .loop | .check _ => true
  | .wrote _ failed => !failed
  | _ => false

/-- An input that is a step of the pump itself, outside of `activate`. -/
def Lifecycle.pumps (s : Lifecycle) (d : Direction) : LifeInput → Bool
  | .pump d' _ => d' = d && s.main = .forward && !s.calling (.pump d)
  | _ => false

def calls (stages : Stage → Bool) (d : Direction) (s : Lifecycle) : List LifeInput → ℕ
  | [] => 0
  | i :: inputs => (if s.pumps d i && stages (s.relay.pump d).stage then 1 else 0) +
      calls stages d (lifeStep s i) inputs

def Lifecycle.observes (s : Lifecycle) (d : Direction) (i : LifeInput) : Bool :=
  s.pumps d i && (s.relay.pump d).stage.polls && s.relay.blocked d

section Step
variable {s : Lifecycle} {d : Direction}

structure Idle (s : Lifecycle) (p p' : Pump) : Prop where
  written : p'.written = p.written
  payload : p'.payload = p.payload
  stage : p'.stage = p.stage
  same : s.main ≠ .serve → p' = p

theorem idle_of_eq {p p' : Pump} (h : p' = p) : Idle s p p' := by
  subst h
  exact ⟨rfl, rfl, rfl, fun _ => rfl⟩

theorem take_idle (r : Relay) (n : ℕ) (d : Direction) :
    ((r.take .clientToUpstream n).pump d).written = (r.pump d).written ∧
      ((r.take .clientToUpstream n).pump d).payload = (r.pump d).payload ∧
      ((r.take .clientToUpstream n).pump d).stage = (r.pump d).stage := by
  cases d <;> simp [Relay.take]

theorem serveStep_idle (a : Answer) (now : ℕ) (hl : Lived s) (hmain : s.main = .serve) (d : Direction) :
    Idle s (s.relay.pump d) ((serveStep s a now).relay.pump d) := by
  have hserve : ¬ s.main ≠ .serve := by simp [hmain]
  rcases hl.serving hmain with hwaits | ⟨b, hb⟩
  · rw [(serveStep_wait a now hwaits).1]
    have hmoves := mainStep_moves s.relay a now
    generalize mainStep s.relay a now = r at hmoves
    cases hmoves with
    | noted hn _ => exact idle_of_eq (by rw [hn.pump])
    | fetched b n _ hpump _ _ _ =>
      rw [hpump]
      obtain ⟨h1, h2, h3⟩ := take_idle s.relay n d
      exact ⟨h1, h2, h3, fun h => absurd h hserve⟩
    | dialed b hb _ _ _ _ =>
      rw [hb] at hwaits
      cases hwaits
    | pumped _ _ hphase _ _ _ _ =>
      rw [hphase] at hwaits
      cases hwaits
    | finished n outcome now hend =>
      obtain ⟨h1, h2, h3⟩ := take_idle s.relay n d
      exact ⟨h1, h2, h3, fun h => absurd h hserve⟩
  · have hahead : ∀ e : Direction, Idle s (s.relay.pump e) (Function.update s.relay.pump .clientToUpstream
        { s.relay.pump .clientToUpstream with ahead := b } e) := by
      intro e
      cases e with
      | clientToUpstream => exact ⟨rfl, rfl, rfl, fun h => absurd h hserve⟩
      | upstreamToClient => exact idle_of_eq rfl
    simp only [serveStep, hb]
    split_ifs
    · exact idle_of_eq rfl
    · exact hahead d
    · exact hahead d

theorem lifeStep_pump (i : LifeInput) (hl : Lived s) (d : Direction) :
    (∃ a, i = .pump d a ∧ s.pumps d i = true ∧
        (lifeStep s i).relay.pump d = pumpStep s.relay d (s.relay.pump d) a) ∨
      s.pumps d i = false ∧ Idle s (s.relay.pump d) ((lifeStep s i).relay.pump d) := by
  have hcall (g : Caller) : Idle s (s.relay.pump d) ((callStep s g).relay.pump d) :=
    idle_of_eq (by rw [(callStep_kept s g).2.2])
  cases i with
  | main a now =>
    refine .inr ⟨rfl, ?_⟩
    simp only [lifeStep, lifeMain]
    cases hmain : s.main with
    | serve => exact serveStep_idle a now hl hmain d
    | start =>
      simp only [startStep]
      split
      · exact idle_of_eq rfl
      · split_ifs <;> exact idle_of_eq rfl
    | starting =>
      simp only
      split_ifs
      · exact hcall _
      · exact idle_of_eq rfl
    | forward =>
      simp only
      split <;> exact idle_of_eq rfl
    | stop outcome =>
      simp only
      split_ifs <;> exact idle_of_eq rfl
    | _ => exact idle_of_eq rfl
  | pump d' a =>
    simp only [lifeStep]
    by_cases hmain : s.main = .forward
    · rw [if_pos hmain]
      rcases pumpCall_cases s d' a with ⟨hcalling, heq⟩ | ⟨hcalling, hrelay⟩
      · refine .inr ⟨?_, by rw [heq]; exact hcall _⟩
        by_cases hd : d' = d
        · subst hd
          simp [Lifecycle.pumps, hcalling]
        · simp [Lifecycle.pumps, hd]
      · rw [hrelay]
        by_cases hd : d' = d
        · subst hd
          exact .inl ⟨a, rfl, by simp [Lifecycle.pumps, hmain, hcalling], Function.update_self _ _ _⟩
        · refine .inr ⟨by simp [Lifecycle.pumps, hd], idle_of_eq ?_⟩
          exact Function.update_of_ne (fun h => hd h.symm) _ _
    · rw [if_neg hmain]
      exact .inr ⟨by simp [Lifecycle.pumps, hmain], idle_of_eq rfl⟩
  | timer =>
    refine .inr ⟨rfl, ?_⟩
    simp only [lifeStep]
    split_ifs
    · exact hcall _
    · exact idle_of_eq rfl
  | delayOver => exact .inr ⟨rfl, idle_of_eq rfl⟩
  | cancel => exact .inr ⟨rfl, idle_of_eq rfl⟩
  | _ =>
    refine .inr ⟨rfl, ?_⟩
    simp only [lifeStep]
    split_ifs <;> exact idle_of_eq rfl

end Step

/-- What a held pump has written since it was at `p₀`: a part of the bytes it had in hand then,
in one call if at all. -/
structure Leaks (p₀ : Pump) (n : ℕ) (p : Pump) : Prop where
  calls : n + (if p.stage.writing then 1 else 0) ≤ (if p₀.stage.writing then 1 else 0)
  bytes : ∃ w, p.written = p₀.written ++ w ∧ w <+: p₀.payload ∧ (n = 0 → w = [])
  payload : p.stage.writing = true → p.payload = p₀.payload

theorem leaks_refl (p : Pump) : Leaks p 0 p where
  calls := by simp
  bytes := ⟨[], by simp, List.nil_prefix, fun _ => rfl⟩
  payload := fun _ => rfl

theorem leaks_quiet {p₀ p p' : Pump} {n : ℕ} (h : Leaks p₀ n p) (hwritten : p'.written = p.written)
    (hstage : p'.stage.writing = true → p.stage.writing = true ∧ p'.payload = p.payload) : Leaks p₀ n p' := by
  obtain ⟨hcalls, hbytes, hpayload⟩ := h
  refine ⟨?_, by rw [hwritten]; exact hbytes, ?_⟩
  · by_cases hw : p'.stage.writing = true
    · rw [if_pos hw]
      rw [if_pos (hstage hw).1] at hcalls
      exact hcalls
    · rw [if_neg hw]
      omega
  · intro hw
    exact (hstage hw).2.trans (hpayload (hstage hw).1)

/-- The step lemma of a held pump: it gets to no new write. -/
theorem leaks_step {s : Relay} {d : Direction} {p₀ p : Pump} {n : ℕ} (a : Answer) (hblocked : s.blocked d = true)
    (h : Leaks p₀ n p) : Leaks p₀ (n + if p.stage.writes then 1 else 0) (pumpStep s d p a) := by
  unfold pumpStep
  cases hstage : p.stage with
  | loop =>
    simp only [hblocked, if_true]
    exact leaks_quiet h rfl (by simp [Stage.writing])
  | held => exact leaks_quiet h rfl (by simp [Stage.writing])
  | read =>
    rcases read_cases p s.closed a with ⟨heq, -⟩ | ⟨ahead, rest, payload, last, heq, -, -, -⟩
    · rw [heq]
      exact leaks_quiet h rfl (by simp [Stage.writing])
    · rw [heq]
      exact leaks_quiet h rfl (by simp [Stage.writing])
  | check last =>
    simp only [hblocked, if_true]
    exact leaks_quiet h rfl (by simp [Stage.writing])
  | cut last => exact leaks_quiet h rfl (fun _ => ⟨by rw [hstage]; rfl, rfl⟩)
  | pace last m => exact leaks_quiet h rfl (fun _ => ⟨by rw [hstage]; rfl, rfl⟩)
  | write last m =>
    -- the one write that was on its way
    obtain ⟨hcalls, ⟨w, hwritten, -, hnone⟩, hpayload⟩ := h
    have hw : p.stage.writing = true := by rw [hstage]; rfl
    rw [if_pos hw] at hcalls
    have hn : n = 0 := by
      split_ifs at hcalls <;> omega
    rw [hnone hn, List.append_nil] at hwritten
    refine ⟨?_, ⟨p₀.payload.take (min a.size m), ?_, List.take_prefix _ _, ?_⟩, by simp [Stage.writing]⟩
    · simpa [Stage.writing, Stage.writes] using hcalls
    · rw [← hpayload hw, ← hwritten]
    · simp [Stage.writes]
  | add last m failed => exact leaks_quiet h rfl (by simp [Stage.writing])
  | wrote last failed =>
    cases failed with
    | true => exact leaks_quiet h rfl (by simp [Stage.writing])
    | false =>
      simp only [hblocked, if_true, Bool.false_eq_true, if_false]
      exact leaks_quiet h rfl (by simp [Stage.writing])
  | tail last =>
    refine leaks_quiet h rfl ?_
    simp only
    split_ifs <;> simp [Stage.writing]
  | done => exact leaks_quiet h rfl (by simp [Stage.writing, hstage])

section Run
variable {s : Lifecycle} {d : Direction} {stream : Direction → Bytes}

theorem blocked_step (i : LifeInput) (h : Tracked stream s) (hblocked : s.relay.blocked d = true) :
    (lifeStep s i).relay.blocked d = true :=
  blocked_advances (moves_advances (lifeStep_moves i h.lived h.acting h.staged)) d hblocked

theorem leaks_run {p₀ : Pump} {n : ℕ} (inputs : List LifeInput) (h : Tracked stream s)
    (hblocked : s.relay.blocked d = true) (hleaks : Leaks p₀ n (s.relay.pump d)) :
    Leaks p₀ (n + calls Stage.writes d s inputs) ((lifecycle s inputs).relay.pump d) := by
  induction inputs generalizing s n with
  | nil => exact hleaks
  | cons i inputs ih =>
    have hnext : Leaks p₀ (n + if s.pumps d i && (s.relay.pump d).stage.writes then 1 else 0)
        ((lifeStep s i).relay.pump d) := by
      rcases lifeStep_pump i h.lived d with ⟨a, -, hpumps, heq⟩ | ⟨hpumps, hidle⟩
      · rw [heq, hpumps, Bool.true_and]
        exact leaks_step a hblocked hleaks
      · rw [hpumps]
        refine leaks_quiet hleaks hidle.written ?_
        rw [hidle.stage]
        exact fun hw => ⟨hw, hidle.payload⟩
    have hrun := ih (tracked_step i h) (blocked_step i h hblocked) hnext
    rw [calls, ← Nat.add_assoc]
    exact hrun

def Buffered (r : Relay) : Prop := ∀ d, (r.pump d).payload.length ≤ bufferSize

theorem read_buffered (p : Pump) (closed : Bool) (a : Answer) (h : p.payload.length ≤ bufferSize) :
    (p.read closed a).payload.length ≤ bufferSize := by
  unfold Pump.read
  split_ifs
  · simp
  · exact h
  · simp only [List.length_take]
    omega

theorem pumpStep_buffered (r : Relay) (d : Direction) (p : Pump) (a : Answer)
    (h : p.payload.length ≤ bufferSize) : (pumpStep r d p a).payload.length ≤ bufferSize := by
  unfold pumpStep
  cases p.stage with
  | read => exact read_buffered p r.closed a h
  | check last =>
    simp only
    split_ifs
    · exact Nat.zero_le _
    · exact h
  | write last m =>
    simp only [List.length_drop]
    omega
  | wrote last failed =>
    simp only
    split_ifs <;> first | exact h | exact Nat.zero_le _
  | _ => exact h

theorem buffered_step (i : LifeInput) (h : Tracked stream s) (hb : Buffered s.relay) :
    Buffered (lifeStep s i).relay := by
  intro d
  rcases lifeStep_pump i h.lived d with ⟨a, -, -, heq⟩ | ⟨-, hidle⟩
  · rw [heq]
    exact pumpStep_buffered s.relay d _ a (hb d)
  · rw [hidle.payload]
    exact hb d

theorem buffered_lifecycle (h : Tracked stream s) (hb : Buffered s.relay) (inputs : List LifeInput) :
    Buffered (lifecycle s inputs).relay :=
  (run_invariant _ (fun s => Tracked stream s ∧ Buffered s.relay)
    (fun _ i hs => ⟨tracked_step i hs.1, buffered_step i hs.1 hs.2⟩) s ⟨h, hb⟩ inputs).2

theorem observed_step (i : LifeInput) (h : Tracked stream s) (hseen : s.observes d i = true) :
    ((lifeStep s i).relay.pump d).written = (s.relay.pump d).written ∧
      ((lifeStep s i).relay.pump d).stage.writing = false := by
  simp only [Lifecycle.observes, Bool.and_eq_true] at hseen
  obtain ⟨⟨hpumps, hpolls⟩, hblocked⟩ := hseen
  rcases lifeStep_pump i h.lived d with ⟨a, -, -, heq⟩ | ⟨hnot, -⟩
  · rw [heq]
    unfold pumpStep
    cases hstage : (s.relay.pump d).stage with
    | loop =>
      simp only [hblocked, if_true]
      exact ⟨trivial, rfl⟩
    | check last =>
      simp only [hblocked, if_true]
      exact ⟨trivial, rfl⟩
    | wrote last failed =>
      rw [hstage] at hpolls
      have hgood : failed = false := by simpa [Stage.polls] using hpolls
      simp only [hgood, hblocked, if_true, Bool.false_eq_true, if_false]
      exact ⟨trivial, rfl⟩
    | _ =>
      rw [hstage] at hpolls
      cases hpolls
  · rw [hpumps] at hnot
    cases hnot

structure Unread (p : Pump) : Prop where
  written : p.written = []
  stage : p.stage = .loop ∨ p.stage = .held ∨ p.stage = .read ∨ p.stage = .done

theorem unread_run (inputs : List LifeInput) (h : Tracked stream s) (hunread : Unread (s.relay.pump d))
    (hreads : calls Stage.reads d s inputs = 0) : Unread ((lifecycle s inputs).relay.pump d) := by
  induction inputs generalizing s with
  | nil => exact hunread
  | cons i inputs ih =>
    rw [calls] at hreads
    have hrest : calls Stage.reads d (lifeStep s i) inputs = 0 := by omega
    refine ih (tracked_step i h) ?_ hrest
    rcases lifeStep_pump i h.lived d with ⟨a, -, hpumps, heq⟩ | ⟨-, hidle⟩
    · rw [hpumps, Bool.true_and] at hreads
      rw [heq]
      unfold pumpStep
      rcases hunread.stage with hstage | hstage | hstage | hstage
      · rw [hstage]
        refine ⟨hunread.written, ?_⟩
        simp only
        split_ifs <;> simp
      · rw [hstage]
        exact ⟨hunread.written, .inr (.inr (.inr rfl))⟩
      · rw [hstage] at hreads
        simp [Stage.reads] at hreads
      · rw [hstage]
        exact hunread
    · exact ⟨hidle.written.trans hunread.written, by rw [hidle.stage]; exact hunread.stage⟩

end Run

def Relay.faultless (r : Relay) : Relay := { r with decision := { r.decision with selected := false } }

theorem faultless_fault (r : Relay) : r.faultless.fault = none := by
  simp [Relay.faultless, Relay.fault]

structure Holds (decision : Decision) (d : Direction) : Prop where
  selected : decision.selected = true
  action : decision.fault.action = "hold"
  direction : decision.fault.direction = d.name

theorem Holds.fault {r : Relay} {d : Direction} (h : Holds r.decision d) : r.fault = some r.decision.fault := by
  simp [Relay.fault, h.selected, h.action]

theorem Holds.blocked {r : Relay} {d : Direction} (h : Holds r.decision d) (hactive : r.active = true) :
    r.blocked d = true := by
  simp [Relay.blocked, h.fault, hactive, h.action, h.direction]

theorem pumpStep_other {r : Relay} {d d' : Direction} (h : Holds r.decision d) (hactive : r.active = true)
    (hd : d' ≠ d) (p : Pump) (a : Answer) : pumpStep r d' p a = pumpStep r.faultless d' p a := by
  have hname : ¬ d.name = d'.name := fun heq => hd (Direction.name_inj heq).symm
  have hblocked : r.blocked d' = r.faultless.blocked d' := by
    simp [Relay.blocked, h.fault, faultless_fault, h.direction, hname]
  have hpaced : r.paced d' = r.faultless.paced d' := by
    simp [Relay.paced, h.fault, faultless_fault, h.action]
  have huntil : r.untilTrigger d' p.count p.payload.length =
      r.faultless.untilTrigger d' p.count p.payload.length := by
    simp only [Relay.untilTrigger, h.fault, faultless_fault, hactive, Bool.true_eq_false, and_false, if_false]
    cases r.decision.fault.afterBytes <;> rfl
  have hchunk : r.chunk d' p = r.faultless.chunk d' p := by
    simp [Relay.chunk, huntil, h.fault, faultless_fault, h.action]
  unfold pumpStep
  rw [hblocked, hpaced, hchunk]
  rfl

/-- A fault without a trigger, or with one at zero bytes. -/
structure Immediate (f : Fault) : Prop where
  timeless : f.afterDuration = none
  zero : f.afterBytes.getD 0 = 0

/-- The function of `activate` is before its store. -/
def Act.early : Act → Bool
  | .lock | .check | .store => true
  | _ => false

/-- A flow whose hold starts with the pumps: `start` runs `activate` before they do. -/
structure Prompt (d : Direction) (s : Lifecycle) : Prop where
  timer : s.timer = .unset
  fresh : s.main = .serve ∨ s.main = .start → s.once = .fresh ∧ (∀ g, s.calling g = false) ∧ s.finished = false
  starting : s.main = .starting → s.finished = false ∧ (∀ g, g ≠ .start → s.calling g = false) ∧
    (s.relay.active = true ∨ s.calling .start = true ∧
      (s.once = .fresh ∨ ∃ act, s.once = .running .start act ∧ act.early = true))
  active : s.main ≠ .serve → s.main ≠ .start → s.main ≠ .starting → s.main ≠ .returned → s.relay.active = true
  written : (s.relay.pump d).written = []
  stage : (s.relay.pump d).stage = .loop ∨ (s.relay.pump d).stage = .held ∨ (s.relay.pump d).stage = .done

section Prompt
variable {s : Lifecycle} {d : Direction} {stream : Direction → Bytes}

theorem prompt_pump (i : LifeInput) (h : Tracked stream s) (hp : Prompt d s) (hholds : Holds s.relay.decision d) :
    ((lifeStep s i).relay.pump d).written = [] ∧
      (((lifeStep s i).relay.pump d).stage = .loop ∨ ((lifeStep s i).relay.pump d).stage = .held ∨
        ((lifeStep s i).relay.pump d).stage = .done) := by
  rcases lifeStep_pump i h.lived d with ⟨a, rfl, hpumps, heq⟩ | ⟨-, hidle⟩
  · simp only [Lifecycle.pumps, Bool.and_eq_true, decide_eq_true_eq] at hpumps
    have hmain := hpumps.1.2
    have hactive := hp.active (by simp [hmain]) (by simp [hmain]) (by simp [hmain]) (by simp [hmain])
    have hblocked := hholds.blocked hactive
    rw [heq]
    unfold pumpStep
    rcases hp.stage with hstage | hstage | hstage
    · simp only [hstage, hblocked, if_true]
      exact ⟨hp.written, .inr (.inl trivial)⟩
    · rw [hstage]
      exact ⟨hp.written, .inr (.inr rfl)⟩
    · rw [hstage]
      exact ⟨hp.written, hp.stage⟩
  · rw [hidle.written, hidle.stage]
    exact ⟨hp.written, hp.stage⟩

theorem prompt_call (hmain : s.main = .starting) (hp : Prompt d s) (hcalling : s.calling .start = true) :
    (callStep s .start).timer = .unset ∧ (callStep s .start).finished = false ∧
      (∀ g, g ≠ .start → (callStep s .start).calling g = false) ∧
      ((callStep s .start).relay.active = true ∨ (callStep s .start).calling .start = true ∧
        ((callStep s .start).once = .fresh ∨
          ∃ act, (callStep s .start).once = .running .start act ∧ act.early = true)) := by
  obtain ⟨hfinished, hothers, hnow⟩ := hp.starting hmain
  have hkept (g : Caller) (hg : g ≠ .start) : Function.update s.calling .start false g = false := by
    rw [Function.update_of_ne hg]
    exact hothers g hg
  rcases hnow with hactive | ⟨-, hfresh | ⟨act, ho, hearly⟩⟩
  · -- the fault is active, and stays so
    have hstays : (callStep s .start).relay.active = true := by
      rcases callStep_active s .start with hsame | ho
      · rwa [hsame]
      · simp only [callStep, ho, if_true, actStep]
    unfold callStep at hstays ⊢
    cases ho : s.once with
    | fresh => exact ⟨hp.timer, hfinished, hothers, .inl hactive⟩
    | done => exact ⟨hp.timer, hfinished, hkept, .inl hactive⟩
    | running g' act =>
      simp only [ho] at hstays
      simp only
      split_ifs at hstays ⊢ with hg
      · cases act with
        | leave => exact ⟨hp.timer, hfinished, hkept, .inl hactive⟩
        | lock =>
          simp only [actStep] at hstays ⊢
          split_ifs <;> exact ⟨hp.timer, hfinished, hothers, .inl hactive⟩
        | close =>
          simp only [actStep] at hstays ⊢
          split_ifs <;> exact ⟨hp.timer, hfinished, hothers, .inl hactive⟩
        | arm =>
          simp only [actStep] at hstays ⊢
          split_ifs <;> exact ⟨hp.timer, hfinished, hothers, .inl hactive⟩
        | _ => exact ⟨hp.timer, hfinished, hothers, .inl hstays⟩
      · exact ⟨hp.timer, hfinished, hothers, .inl hactive⟩
  · simp only [callStep, hfresh]
    exact ⟨hp.timer, hfinished, hothers, .inr ⟨hcalling, .inr ⟨.lock, rfl, rfl⟩⟩⟩
  · simp only [callStep, ho, if_true]
    cases act with
    | lock =>
      simp only [actStep]
      split_ifs
      · exact ⟨hp.timer, hfinished, hothers, .inr ⟨hcalling, .inr ⟨.check, rfl, rfl⟩⟩⟩
      · exact ⟨hp.timer, hfinished, hothers, .inr ⟨hcalling, .inr ⟨.lock, ho, rfl⟩⟩⟩
    | check =>
      simp only [actStep, hfinished, Bool.false_eq_true, if_false]
      exact ⟨hp.timer, trivial, hothers, .inr ⟨hcalling, .inr ⟨.store, rfl, rfl⟩⟩⟩
    | store => exact ⟨hp.timer, hfinished, hothers, .inl rfl⟩
    | _ => cases hearly

theorem callStep_timer (s : Lifecycle) (g : Caller) : (callStep s g).timer = s.timer := by
  have hcase := callStep_cases s g
  generalize callStep s g = s' at hcase
  cases hcase with
  | control _ _ _ htimer => exact htimer
  | acts act ho hacts =>
    cases act with
    | lock => simp [Act.acted] at hacts
    | close =>
      simp only [actStep]
      split_ifs <;> rfl
    | arm =>
      simp only [actStep]
      split_ifs <;> rfl
    | _ => rfl

theorem pumpCall_timer (s : Lifecycle) (d : Direction) (a : Answer) : (pumpCall s d a).timer = s.timer := by
  unfold pumpCall
  split_ifs
  · exact callStep_timer s _
  · simp only
    split
    · split_ifs <;> rfl
    · rfl

theorem prompt_main (a : Answer) (now : ℕ) (h : Tracked stream s) (hp : Prompt d s)
    (hholds : Holds s.relay.decision d) (hnow : Immediate s.relay.decision.fault) :
    Prompt d (lifeStep s (.main a now)) := by
  obtain ⟨hwritten, hstage⟩ := prompt_pump (.main a now) h hp hholds
  have hlater (htimer : (lifeStep s (.main a now)).timer = .unset)
      (hm : (lifeStep s (.main a now)).main ≠ .serve ∧ (lifeStep s (.main a now)).main ≠ .start ∧
        (lifeStep s (.main a now)).main ≠ .starting)
      (hactive : (lifeStep s (.main a now)).main ≠ .returned → (lifeStep s (.main a now)).relay.active = true) :
      Prompt d (lifeStep s (.main a now)) :=
    ⟨htimer, fun hor => (hor.elim (fun h => absurd h hm.1) (fun h => absurd h hm.2.1)),
      fun hst => absurd hst hm.2.2, fun _ _ _ h4 => hactive h4, hwritten, hstage⟩
  have hstay (heq : lifeStep s (.main a now) = s) : Prompt d (lifeStep s (.main a now)) := by
    rw [heq]
    exact hp
  have hfault := hholds.fault
  cases hmain : s.main with
  | serve =>
    obtain ⟨hfresh, hcalling, hfinished⟩ := hp.fresh (.inl hmain)
    rcases h.lived.serving hmain with hwaits | ⟨b, hb⟩
    · rw [(h.lived.waiting hwaits).2.1] at hfault
      cases hfault
    · by_cases hfails : a.fails = true
      · have hstep : lifeStep s (.main a now) =
            { s with relay := s.relay.finish "dial_error" now, main := .returned } := by
          simp only [lifeStep, lifeMain, hmain, serveStep, hb, hfails, if_true]
        refine hlater ?_ ?_ ?_
        · rw [hstep]
          exact hp.timer
        · rw [hstep]
          exact ⟨by simp, by simp, by simp⟩
        · rw [hstep]
          exact fun hne => absurd rfl hne
      · have hstep : (lifeStep s (.main a now)).main = .start ∧ (lifeStep s (.main a now)).once = s.once ∧
            (lifeStep s (.main a now)).calling = s.calling ∧ (lifeStep s (.main a now)).finished = s.finished ∧
            (lifeStep s (.main a now)).timer = s.timer := by
          simp only [lifeStep, lifeMain, hmain, serveStep, hb, hfails, hfault, Option.isSome_some, if_true]
          exact ⟨rfl, rfl, rfl, rfl, rfl⟩
        obtain ⟨h1, h2, h3, h4, h5⟩ := hstep
        refine ⟨h5.trans hp.timer, ?_, by simp [h1], by simp [h1], hwritten, hstage⟩
        rw [h2, h3, h4]
        exact fun _ => ⟨hfresh, hcalling, hfinished⟩
  | start =>
    obtain ⟨hfresh, hcalling, hfinished⟩ := hp.fresh (.inr hmain)
    have hstep : lifeStep s (.main a now) = { s.call .start with main := .starting } := by
      simp only [lifeStep, lifeMain, hmain, startStep, hfault, hnow.timeless, hnow.zero, Option.isSome_none,
        Bool.false_eq_true, if_false, if_true]
    refine ⟨by rw [hstep]; exact hp.timer, by simp [hstep], ?_, by simp [hstep], hwritten, hstage⟩
    intro _
    rw [hstep]
    refine ⟨hfinished, ?_, .inr ⟨?_, .inl hfresh⟩⟩
    · intro g hg
      exact (Function.update_of_ne hg _ _).trans (hcalling g)
    · exact Function.update_self Caller.start true s.calling
  | starting =>
    by_cases hcalling : s.calling .start = true
    · have hstep : lifeStep s (.main a now) = callStep s .start := by
        simp only [lifeStep, lifeMain, hmain, hcalling, if_true]
      obtain ⟨h1, h2, h3, h4⟩ := prompt_call hmain hp hcalling
      have hmain' := (callStep_kept s .start).1.trans hmain
      refine ⟨by rw [hstep]; exact h1, by simp [hstep, hmain'], ?_, by simp [hstep, hmain'], hwritten, hstage⟩
      rw [hstep]
      exact fun _ => ⟨h2, h3, h4⟩
    · have hstep : lifeStep s (.main a now) = { s with main := .forward } := by
        simp only [lifeStep, lifeMain, hmain, hcalling, Bool.false_eq_true, if_false]
      have hactive := (hp.starting hmain).2.2.resolve_right (fun hc => hcalling hc.1)
      refine hlater ?_ ?_ ?_
      · rw [hstep]
        exact hp.timer
      · rw [hstep]
        exact ⟨by simp, by simp, by simp⟩
      · rw [hstep]
        exact fun _ => hactive
  | forward =>
    have hactive := hp.active (by simp [hmain]) (by simp [hmain]) (by simp [hmain]) (by simp [hmain])
    by_cases hdone : (s.pumped .clientToUpstream && s.pumped .upstreamToClient) = true
    · have hstep : lifeStep s (.main a now) =
          { s with main := .stop (if s.relay.active then s.relay.decision.fault.action else "forwarded") } := by
        simp only [lifeStep, lifeMain, hmain, hdone, hfault, if_true]
      refine hlater ?_ ?_ ?_
      · rw [hstep]
        exact hp.timer
      · rw [hstep]
        exact ⟨by simp, by simp, by simp⟩
      · rw [hstep]
        exact fun _ => hactive
    · refine hstay ?_
      simp only [lifeStep, lifeMain, hmain]
      exact if_neg hdone
  | stop outcome =>
    have hactive := hp.active (by simp [hmain]) (by simp [hmain]) (by simp [hmain]) (by simp [hmain])
    by_cases hfree : s.mutex = none
    · have hstep : lifeStep s (.main a now) = { s with mutex := some .stop, main := .stopping outcome } := by
        simp only [lifeStep, lifeMain, hmain, hfree, if_true]
      refine hlater ?_ ?_ ?_
      · rw [hstep]
        exact hp.timer
      · rw [hstep]
        exact ⟨by simp, by simp, by simp⟩
      · rw [hstep]
        exact fun _ => hactive
    · refine hstay ?_
      simp only [lifeStep, lifeMain, hmain]
      exact if_neg hfree
  | stopping outcome =>
    have hactive := hp.active (by simp [hmain]) (by simp [hmain]) (by simp [hmain]) (by simp [hmain])
    refine hlater ?_ ?_ ?_
    · simp only [lifeStep, lifeMain, hmain, hp.timer]
      rfl
    · simp [lifeStep, lifeMain, hmain]
    · simp only [lifeStep, lifeMain, hmain]
      exact fun _ => hactive
  | finish outcome =>
    refine hlater ?_ ?_ ?_
    · simp only [lifeStep, lifeMain, hmain]
      exact hp.timer
    · simp [lifeStep, lifeMain, hmain]
    · simp [lifeStep, lifeMain, hmain]
  | returned =>
    refine hstay ?_
    simp only [lifeStep, lifeMain, hmain]

theorem prompt_step (i : LifeInput) (h : Tracked stream s) (hp : Prompt d s) (hholds : Holds s.relay.decision d)
    (hnow : Immediate s.relay.decision.fault) : Prompt d (lifeStep s i) := by
  obtain ⟨hwritten, hstage⟩ := prompt_pump i h hp hholds
  have hadvances := moves_advances (lifeStep_moves i h.lived h.acting h.staged)
  -- a step that is none of `serve` and changes nothing of the calls
  have hkeep (s' : Lifecycle) (hs : lifeStep s i = s') (hmain : s'.main = s.main) (htimer : s'.timer = s.timer)
      (honce : s'.once = s.once) (hcalling : s'.calling = s.calling) (hfinished : s'.finished = s.finished) :
      Prompt d (lifeStep s i) := by
    refine ⟨by rw [hs, htimer]; exact hp.timer, ?_, ?_, ?_, hwritten, hstage⟩
    · rw [hs, hmain, honce, hcalling, hfinished]
      exact hp.fresh
    · intro hm
      rw [hs, hmain] at hm
      obtain ⟨h1, h2, h3⟩ := hp.starting hm
      rw [hs, honce, hcalling, hfinished, ← hs]
      exact ⟨h1, h2, h3.imp_left hadvances.active⟩
    · intro h1 h2 h3 h4
      rw [hs, hmain] at h1 h2 h3 h4
      exact hadvances.active (hp.active h1 h2 h3 h4)
  -- once the pumps may run, the fault is active
  have hlater (htimer : (lifeStep s i).timer = .unset) (hm : (lifeStep s i).main ≠ .serve ∧
      (lifeStep s i).main ≠ .start ∧ (lifeStep s i).main ≠ .starting)
      (hactive : (lifeStep s i).main ≠ .returned → s.relay.active = true) : Prompt d (lifeStep s i) :=
    ⟨htimer, fun hor => (hor.elim (fun h => absurd h hm.1) (fun h => absurd h hm.2.1)),
      fun hst => absurd hst hm.2.2, fun _ _ _ h4 => hadvances.active (hactive h4), hwritten, hstage⟩
  cases i with
  | main a now => exact prompt_main a now h hp hholds hnow
  | pump d' a =>
    by_cases hmain : s.main = .forward
    · have hstep : lifeStep s (.pump d' a) = pumpCall s d' a := if_pos hmain
      have hmain' : (lifeStep s (.pump d' a)).main = .forward := by rw [hstep, pumpCall_main, hmain]
      refine hlater ?_ (by simp [hmain']) ?_
      · rw [hstep, pumpCall_timer]
        exact hp.timer
      · exact fun _ => hp.active (by simp [hmain]) (by simp [hmain]) (by simp [hmain]) (by simp [hmain])
    · exact hkeep s (if_neg hmain) rfl rfl rfl rfl rfl
  | timerFires =>
    refine hkeep s (if_neg ?_) rfl rfl rfl rfl rfl
    rw [hp.timer]
    decide
  | timer =>
    by_cases hcalling : s.calling .timer = true
    · have hstep : lifeStep s .timer = callStep s .timer := if_pos hcalling
      have hmain : (lifeStep s .timer).main = s.main := by rw [hstep, (callStep_kept s .timer).1]
      have hforward : s.main ≠ .serve ∧ s.main ≠ .start ∧ s.main ≠ .starting := by
        refine ⟨?_, ?_, ?_⟩
        · intro hm
          rw [(hp.fresh (.inl hm)).2.1 .timer] at hcalling
          cases hcalling
        · intro hm
          rw [(hp.fresh (.inr hm)).2.1 .timer] at hcalling
          cases hcalling
        · intro hm
          rw [(hp.starting hm).2.1 .timer (by decide)] at hcalling
          cases hcalling
      refine hlater ?_ (by rwa [hmain]) ?_
      · rw [hstep, callStep_timer]
        exact hp.timer
      · rw [hmain]
        exact hp.active hforward.1 hforward.2.1 hforward.2.2
    · exact hkeep s (if_neg hcalling) rfl rfl rfl rfl rfl
  | holdFires =>
    by_cases harmed : s.hold = .armed
    · exact hkeep _ (if_pos harmed) rfl rfl rfl rfl rfl
    · exact hkeep _ (if_neg harmed) rfl rfl rfl rfl rfl
  | holdCloses =>
    by_cases hfired : s.hold = .fired
    · exact hkeep _ (if_pos hfired) rfl rfl rfl rfl rfl
    · exact hkeep _ (if_neg hfired) rfl rfl rfl rfl rfl
  | delayOver => exact hkeep _ rfl rfl rfl rfl rfl rfl
  | cancel => exact hkeep _ rfl rfl rfl rfl rfl rfl

end Prompt

section Law
variable {s : Lifecycle} {d : Direction} {stream : Direction → Bytes}

theorem holds_lifecycle (h : Holds s.relay.decision d) (inputs : List LifeInput) :
    Holds (lifecycle s inputs).relay.decision d := by
  rw [lifecycle_decision]
  exact h

theorem prompt_lifecycle (h : Tracked stream s) (hp : Prompt d s) (hholds : Holds s.relay.decision d)
    (hnow : Immediate s.relay.decision.fault) (inputs : List LifeInput) : Prompt d (lifecycle s inputs) := by
  induction inputs using List.reverseRecOn with
  | nil => exact hp
  | append_singleton inputs i ih =>
    rw [lifecycle_snoc]
    refine prompt_step i (tracked_lifecycle h inputs) ih (holds_lifecycle hholds inputs) ?_
    rw [lifecycle_decision]
    exact hnow

theorem other_unheld (h : Tracked stream s) (hholds : Holds s.relay.decision d) {d' : Direction} (hd : d' ≠ d)
    (hstart : (s.relay.pump d').stage ≠ .held) (inputs : List LifeInput) :
    ((lifecycle s inputs).relay.pump d').stage ≠ .held := by
  induction inputs using List.reverseRecOn with
  | nil => exact hstart
  | append_singleton inputs i ih =>
    have hname : ¬ d.name = d'.name := fun heq => hd (Direction.name_inj heq).symm
    have hnow := holds_lifecycle hholds inputs
    have hfree : (lifecycle s inputs).relay.blocked d' = false := by
      simp [Relay.blocked, hnow.fault, hnow.direction, hname]
    rw [lifecycle_snoc]
    rcases lifeStep_pump i (tracked_lifecycle h inputs).lived d' with ⟨a, -, -, heq⟩ | ⟨-, hidle⟩
    · rw [heq]
      unfold pumpStep
      cases hstage : ((lifecycle s inputs).relay.pump d').stage with
      | read =>
        rcases read_cases ((lifecycle s inputs).relay.pump d') (lifecycle s inputs).relay.closed a with
          ⟨hread, -⟩ | ⟨_, _, _, _, hread, -, -, -⟩ <;> simp [hread]
      | held => exact absurd hstage ih
      | wrote last failed =>
        simp only [hfree, Bool.false_eq_true, if_false]
        split_ifs <;> simp
      | pace last m =>
        simp only
        split_ifs <;> simp
      | tail last =>
        simp only
        split_ifs <;> simp
      | done =>
        simp only
        exact ih
      | _ => simp [hfree]
    · rw [hidle.stage]
      exact ih

end Law

structure HoldLaw (d : Direction) (s : Lifecycle) (stream : Direction → Bytes) (inputs : List LifeInput) :
    Prop where
  /-- From the moment of activation on there is at most one more call of `Write`, and it writes
  bytes that had been read by then. -/
  leak : ∀ before after, inputs = before ++ after → (lifecycle s before).relay.active = true →
    calls Stage.writes d (lifecycle s before) after ≤ 1 ∧
      ∃ w, ((lifecycle s inputs).relay.pump d).written = ((lifecycle s before).relay.pump d).written ++ w ∧
        w <+: ((lifecycle s before).relay.pump d).payload ∧ w.length ≤ 4096
  /-- Once the pump has seen the hold, it writes no more. -/
  observed : ∀ before i after, inputs = before ++ i :: after → (lifecycle s before).observes d i = true →
    calls Stage.writes d (lifecycle s before) (i :: after) = 0 ∧
      ((lifecycle s inputs).relay.pump d).written = ((lifecycle s before).relay.pump d).written
  /-- The other pump goes on as it would without a fault. -/
  other : ∀ before i after, inputs = before ++ i :: after → (lifecycle s before).relay.active = true →
    ∀ d', d' ≠ d →
      (∃ a, i = .pump d' a ∧ (lifecycle s before).pumps d' i = true ∧
        (lifecycle s (before ++ [i])).relay.pump d' =
          pumpStep (lifecycle s before).relay.faultless d' ((lifecycle s before).relay.pump d') a) ∨
      (lifecycle s before).pumps d' i = false ∧
        (lifecycle s (before ++ [i])).relay.pump d' = (lifecycle s before).relay.pump d'
  whole : ∀ d', d' ≠ d → (lifecycle s inputs).relay.phase = .forwarding →
    ((lifecycle s inputs).relay.pump d').stage ≠ .done →
    ((lifecycle s inputs).relay.pump d').Intact (stream d')
  /-- With an activation before the first read nothing is written at all. -/
  early : ∀ before after, inputs = before ++ after → (lifecycle s before).relay.active = true →
    calls Stage.reads d s before = 0 → ((lifecycle s inputs).relay.pump d).written = []
  immediate : Immediate s.relay.decision.fault → ((lifecycle s inputs).relay.pump d).written = []

theorem writing_budget (stage : Stage) : (if stage.writing then 1 else 0) ≤ 1 := by
  split_ifs <;> omega

theorem hold_law (decision : Decision) (d : Direction) (hholds : Holds decision d) (info : Info)
    (flowID proxyID : String) (now : ℕ) (client upstream : Bytes) (inputs : List LifeInput) :
    HoldLaw d (.start (.start decision info flowID proxyID now client upstream)) (streams client upstream)
      inputs := by
  have ht := tracked_start decision info flowID proxyID now client upstream
  have hloop : ∀ d', ((Lifecycle.start (.start decision info flowID proxyID now client upstream)).relay.pump
      d').stage = .loop ∧ ((Lifecycle.start (.start decision info flowID proxyID now client upstream)).relay.pump
      d').written = [] ∧ ((Lifecycle.start (.start decision info flowID proxyID now client upstream)).relay.pump
      d').payload = [] := by
    intro d'
    cases d' <;> exact ⟨rfl, rfl, rfl⟩
  have hprompt : Prompt d (.start (.start decision info flowID proxyID now client upstream)) :=
    ⟨rfl, fun _ => ⟨rfl, fun _ => rfl, rfl⟩, by simp [Lifecycle.start], by simp [Lifecycle.start],
      (hloop d).2.1, .inl (hloop d).1⟩
  have hdecision : Holds (Lifecycle.start
      (.start decision info flowID proxyID now client upstream)).relay.decision d := hholds
  generalize Lifecycle.start (.start decision info flowID proxyID now client upstream) = s at *
  have hbuffered : Buffered s.relay := by
    intro d'
    rw [(hloop d').2.2]
    exact Nat.zero_le _
  have hblocked (before : List LifeInput) (hactive : (lifecycle s before).relay.active = true) :
      (lifecycle s before).relay.blocked d = true := (holds_lifecycle hdecision before).blocked hactive
  have hleaks (before after : List LifeInput) (hactive : (lifecycle s before).relay.active = true) :
      Leaks ((lifecycle s before).relay.pump d) (calls Stage.writes d (lifecycle s before) after)
        ((lifecycle s (before ++ after)).relay.pump d) := by
    have hrun := leaks_run after (tracked_lifecycle ht before) (hblocked before hactive)
      (leaks_refl ((lifecycle s before).relay.pump d))
    rwa [Nat.zero_add, ← lifecycle_append] at hrun
  -- a pump with no write on its way writes nothing more
  have hsilent (before after : List LifeInput) (hactive : (lifecycle s before).relay.active = true)
      (hstage : ((lifecycle s before).relay.pump d).stage.writing = false) :
      calls Stage.writes d (lifecycle s before) after = 0 ∧
        ((lifecycle s (before ++ after)).relay.pump d).written = ((lifecycle s before).relay.pump d).written := by
    obtain ⟨hcalls, ⟨w, hw, -, hnone⟩, -⟩ := hleaks before after hactive
    rw [hstage] at hcalls
    simp only [Bool.false_eq_true, if_false] at hcalls
    have hzero : calls Stage.writes d (lifecycle s before) after = 0 := by omega
    refine ⟨hzero, ?_⟩
    rw [hw, hnone hzero, List.append_nil]
  refine ⟨?_, ?_, ?_, ?_, ?_, ?_⟩
  · rintro before after rfl hactive
    obtain ⟨hcalls, ⟨w, hw, hprefix, -⟩, -⟩ := hleaks before after hactive
    have hbudget := writing_budget ((lifecycle s before).relay.pump d).stage
    have hroom := buffered_lifecycle ht hbuffered before d
    refine ⟨by omega, w, hw, hprefix, ?_⟩
    exact hprefix.length_le.trans hroom
  · rintro before i after rfl hseen
    have hactive : (lifecycle s before).relay.active = true := by
      simp only [Lifecycle.observes, Bool.and_eq_true] at hseen
      have hb := hseen.2
      rw [Relay.blocked, (holds_lifecycle hdecision before).fault] at hb
      simp only [Bool.and_eq_true] at hb
      exact hb.1.1
    have hbefore := tracked_lifecycle ht before
    obtain ⟨hsame, hstage⟩ := observed_step i hbefore hseen
    have hnext : (lifecycle s (before ++ [i])).relay.active = true := by
      rw [lifecycle_snoc]
      exact (moves_advances (lifeStep_moves i hbefore.lived hbefore.acting hbefore.staged)).active hactive
    rw [← lifecycle_snoc] at hsame hstage
    obtain ⟨hzero, hrest⟩ := hsilent (before ++ [i]) after hnext hstage
    refine ⟨?_, ?_⟩
    · -- the step that sees the hold is at a stage that does not write
      have hpolls : ((lifecycle s before).relay.pump d).stage.writes = false := by
        simp only [Lifecycle.observes, Bool.and_eq_true] at hseen
        have hp := hseen.1.2
        cases hst : ((lifecycle s before).relay.pump d).stage with
        | write last m =>
          rw [hst] at hp
          cases hp
        | _ => rfl
      rw [calls, hpolls, Bool.and_false, if_neg (by decide), ← lifecycle_snoc, hzero]
    · rw [← hsame, ← hrest, List.append_assoc, List.singleton_append]
  · rintro before i after rfl hactive d' hd
    have hbefore := tracked_lifecycle ht before
    rw [lifecycle_snoc]
    rcases lifeStep_pump i hbefore.lived d' with ⟨a, hi, hpumps, heq⟩ | ⟨hpumps, hidle⟩
    · rw [heq, pumpStep_other (holds_lifecycle hdecision before) hactive hd]
      exact .inl ⟨a, hi, hpumps, rfl⟩
    · refine .inr ⟨hpumps, hidle.same ?_⟩
      -- an active fault is past the dial
      intro hserve
      have hnone := serving_unapplied hbefore.lived hserve (by
        rw [(holds_lifecycle hdecision before).fault]
        rfl)
      rcases hbefore.acting.pending hactive with happlied | ⟨g, ho⟩
      · rw [hnone] at happlied
        cases happlied
      · rw [(hbefore.lived.uncalled (.inr hserve)).1] at ho
        cases ho
  · intro d' hd hphase hstage
    have hnow := holds_lifecycle hdecision inputs
    have hunheld := other_unheld ht hdecision hd (by rw [(hloop d').1]; decide) inputs
    have hname : ¬ d.name = d'.name := fun heq => hd (Direction.name_inj heq).symm
    have hfree : (lifecycle s inputs).relay.blocked d' = false := by
      simp [Relay.blocked, hnow.fault, hnow.direction, hname]
    have hsound := ((tracked_lifecycle ht inputs).carried d').during hphase
    rcases hsound.carries with hintact | ⟨-, hmute⟩
    · exact hintact
    · rw [hfree] at hmute
      cases hst : ((lifecycle s inputs).relay.pump d').stage with
      | done => exact absurd hst hstage
      | held => exact absurd hst hunheld
      | _ =>
        rw [hst] at hmute
        cases hmute
  · rintro before after rfl hactive hreads
    have hunread := unread_run before ht ⟨(hloop d).2.1, .inl (hloop d).1⟩ hreads
    have hstage : ((lifecycle s before).relay.pump d).stage.writing = false := by
      rcases hunread.stage with hst | hst | hst | hst <;> rw [hst] <;> rfl
    rw [(hsilent before after hactive hstage).2]
    exact hunread.written
  · intro hnow
    exact (prompt_lifecycle ht hprompt hdecision hnow inputs).written

def sampleHeldInputs : List LifeInput :=
  List.replicate 2 (.main ⟨0, false, false⟩ 1) ++
    List.replicate 17 (.pump .clientToUpstream ⟨5, false, false⟩)

theorem hold_law_three :
    Holds sampleHoldDecision .clientToUpstream ∧
      (lifecycle (.start (.start sampleHoldDecision ⟨"run", 1, true, 0, 0, 0⟩ "flow" "tcp" 0 (bytesOf "hello") []))
        sampleHeldInputs).relay.active = true ∧
      HoldLaw .clientToUpstream
        (.start (.start sampleHoldDecision ⟨"run", 1, true, 0, 0, 0⟩ "flow" "tcp" 0 (bytesOf "hello") []))
        (streams (bytesOf "hello") []) sampleHeldInputs := by
  have hholds : Holds sampleHoldDecision .clientToUpstream := ⟨rfl, rfl, rfl⟩
  exact ⟨hholds, by decide +kernel, hold_law sampleHoldDecision .clientToUpstream hholds
    ⟨"run", 1, true, 0, 0, 0⟩ "flow" "tcp" 0 (bytesOf "hello") [] sampleHeldInputs⟩

end Faultline.TCP
