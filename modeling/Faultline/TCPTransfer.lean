import Faultline.TCPRelay

/-! Runs of a TCP connection: what reaches either side, what is recorded, and when
everything gets through. -/
namespace Faultline.TCP

/-- No context was cancelled and no fault that ends the connection was activated. -/
def Undisturbed (s : Relay) : Prop := s.cancelled = false ∧
  ¬ (s.active = true ∧
    (s.decision.fault.action = "close_connection" ∨ s.decision.fault.action = "hold"))

theorem undisturbed_of_advances {s s' : Relay} (ha : Advances s s') (h : Undisturbed s') : Undisturbed s := by
  obtain ⟨h1, h2⟩ := h
  refine ⟨?_, ?_⟩
  · rw [← Bool.not_eq_true] at h1 ⊢
    exact fun hh => h1 (ha.cancelled hh)
  · rw [ha.decision] at h2
    exact fun hh => h2 ⟨ha.active hh.1, hh.2⟩

theorem undisturbed_free {s : Relay} (h : Undisturbed s) (d : Direction) : s.blocked d = false := by
  unfold Relay.blocked
  split
  · rfl
  · rename_i f hf
    rw [← Bool.not_eq_true, Bool.and_eq_true, Bool.and_eq_true, decide_eq_true_eq, fault_some hf]
    exact fun hh => h.2 ⟨hh.1.1, .inr hh.1.2⟩

def Opened (s : Relay) : Prop := Undisturbed s → s.closed = false

theorem opened_step {s : Relay} (i : Input) (h : Opened s) : Opened (relayStep s i) := by
  have ha := moves_advances (relayStep_moves s i)
  intro hu
  rw [← Bool.not_eq_true]
  intro hclosed
  rcases ha.closed hclosed with hc | hc | hc
  · rw [h (undisturbed_of_advances ha hu)] at hc
    cases hc
  · rw [hu.1] at hc
    cases hc
  · rw [← ha.decision] at hc
    exact hu.2 hc

theorem relayStep_pump {s : Relay} {d : Direction} (a : Answer) (h : s.phase = .forwarding) :
    (relayStep s (.pump d a)).pump = Function.update s.pump d (pumpStep s d (s.pump d) a) ∧
      (relayStep s (.pump d a)).phase = .forwarding := by
  simp only [relayStep, h, if_true]
  split
  · have hn := reachedBytes_noted { s with
      phase := .forwarding
      pump := Function.update s.pump d (pumpStep s d (s.pump d) a) } d (pumpStep s d (s.pump d) a).count
    exact ⟨hn.pump, hn.phase⟩
  · exact ⟨rfl, rfl⟩

theorem over_step {s : Relay} {o : String} (i : Input) (h : s.phase = .over o) :
    (relayStep s i).pump = s.pump ∧ (relayStep s i).phase = .over o := by
  have hmoves := relayStep_moves s i
  generalize relayStep s i = s' at hmoves
  cases hmoves with
  | noted hn _ => exact ⟨hn.pump, hn.phase.trans h⟩
  | fetched b n hb _ _ _ _ =>
    rw [h] at hb
    cases hb
  | dialed b hb _ _ _ _ =>
    rw [h] at hb
    cases hb
  | pumped _ _ hphase _ _ _ _ =>
    rw [h] at hphase
    cases hphase
  | finished n outcome now hend =>
    rcases hend with hbuffer | ⟨hphase, -⟩
    · exact absurd h (buffer_not_over hbuffer o)
    · rw [h] at hphase
      cases hphase

def Relaying (s : Relay) : Prop :=
  s.phase = .forwarding ∨ (∃ o, s.phase = .over o) ∧ ∀ d, (s.pump d).stage = .done

def Input.steps (d : Direction) : Input → Bool
  | .pump d' _ => d' = d
  | _ => false

def Input.Succeeds (s : Relay) : Input → Prop
  | .pump d a => s.phase = .forwarding → (s.pump d).stage.Succeeds a
  | _ => True

/-- From one state to the next nothing is lost, and a step of a pump leaves it less to do. -/
structure Progress (stream : Direction → Bytes) (i : Input) (s s' : Relay) : Prop where
  relaying : Relaying s'
  whole : ∀ d, (s'.pump d).Whole (stream d)
  ended : ∀ d, (s.pump d).stage = .done → (s'.pump d).stage = .done
  work : ∀ d, (s.pump d).stage ≠ .done →
    (s'.pump d).work + (if i.steps d then 1 else 0) ≤ (s.pump d).work

section Progress
variable {s s' : Relay} {stream : Direction → Bytes} {i : Input}

theorem progress_same (hpump : s'.pump = s.pump) (hrelaying : Relaying s')
    (hwhole : ∀ d, (s.pump d).Whole (stream d))
    (hidle : ∀ d, i.steps d = true → (s.pump d).stage = .done) : Progress stream i s s' where
  relaying := hrelaying
  whole := by
    rw [hpump]
    exact hwhole
  ended := by
    rw [hpump]
    exact fun _ => id
  work := by
    intro d hne
    have hno : i.steps d = false := by
      rw [← Bool.not_eq_true]
      exact fun hh => hne (hidle d hh)
    simp [hpump, hno]

theorem progress_pump {d : Direction} {a : Answer} (hphase : s.phase = .forwarding)
    (hwhole : ∀ d, (s.pump d).Whole (stream d)) (hcarried : ∀ d, Carried s d (stream d))
    (hopened : Opened s) (hu : Undisturbed s) (ha : (s.pump d).stage.Succeeds a) :
    Progress stream (.pump d a) s (relayStep s (.pump d a)) := by
  obtain ⟨hpump, hphase'⟩ := relayStep_pump (d := d) a hphase
  by_cases hdone : (s.pump d).stage = .done
  · -- a pump that has ended takes no more steps
    have hstay : pumpStep s d (s.pump d) a = s.pump d := by simp [pumpStep, hdone]
    refine progress_same ?_ (.inl hphase') hwhole ?_
    · rw [hpump, hstay, Function.update_eq_self]
    · intro d' hd'
      simp only [Input.steps, decide_eq_true_eq] at hd'
      rwa [← hd']
  · obtain ⟨h1, h2⟩ := pumpStep_whole (hwhole d) ((hcarried d).during hphase).fits
      (undisturbed_free hu d) (hopened hu) hu.1 ha hdone
    refine ⟨.inl hphase', ?_, ?_, ?_⟩
    · intro d'
      rw [hpump]
      by_cases hd : d' = d
      · subst hd
        rwa [Function.update_self]
      · rw [Function.update_of_ne hd]
        exact hwhole d'
    · intro d' hd'
      have hd : d' ≠ d := by
        rintro rfl
        exact hdone hd'
      rwa [hpump, Function.update_of_ne hd]
    · intro d' _
      rw [hpump]
      by_cases hd : d' = d
      · subst hd
        simp only [Function.update_self, Input.steps, decide_true, if_true]
        omega
      · rw [Function.update_of_ne hd]
        simp [Input.steps, Ne.symm hd]

theorem progress_main {a : Answer} {now : ℕ} (hphase : s.phase = .forwarding)
    (hwhole : ∀ d, (s.pump d).Whole (stream d)) :
    Progress stream (.main a now) s (relayStep s (.main a now)) := by
  by_cases hboth : (s.pump .clientToUpstream).stage = .done ∧ (s.pump .upstreamToClient).stage = .done
  · have hstep : relayStep s (.main a now) =
        s.finish (if s.active = true then s.decision.fault.action else "forwarded") now := by
      simp only [relayStep, mainStep, hphase, hboth, and_self, if_true]
    rw [hstep]
    refine progress_same rfl (.inr ⟨⟨_, rfl⟩, ?_⟩) hwhole (fun d hd => by cases hd)
    intro d
    cases d
    · exact hboth.1
    · exact hboth.2
  · have hstep : relayStep s (.main a now) = s := by
      simp only [relayStep, mainStep, hphase, hboth, if_false]
    rw [hstep]
    exact progress_same rfl (.inl hphase) hwhole (fun d hd => by cases hd)

theorem flags_noted (s : Relay) : Noted s (relayStep s .delayOver) ∧ Noted s (relayStep s .timer) ∧
    Noted s (relayStep s .holdTimer) ∧ Noted s (relayStep s .cancel) := by
  refine ⟨⟨rfl, rfl, .inl rfl⟩, ?_, ?_, ⟨rfl, rfl, .inl rfl⟩⟩
  · simp only [relayStep]
    split
    · exact noted_refl s
    · split_ifs
      · exact activate_noted s _
      · exact noted_refl s
  · simp only [relayStep]
    split_ifs
    · exact ⟨rfl, rfl, .inl rfl⟩
    · exact noted_refl s

theorem progress_step (i : Input) (h : Relaying s) (hwhole : ∀ d, (s.pump d).Whole (stream d))
    (hcarried : ∀ d, Carried s d (stream d)) (hopened : Opened s) (hu : Undisturbed s)
    (hi : i.Succeeds s) : Progress stream i s (relayStep s i) := by
  obtain ⟨hdelay, htimer, hhold, hcancel⟩ := flags_noted s
  rcases h with hphase | ⟨⟨o, ho⟩, hdone⟩
  · have hflags (i' : Input) (hn : Noted s (relayStep s i')) (hidle : ∀ d, i'.steps d = false) :
        Progress stream i' s (relayStep s i') := by
      refine progress_same hn.pump (.inl (hn.phase.trans hphase)) hwhole ?_
      intro d hd
      rw [hidle d] at hd
      cases hd
    cases i with
    | pump d a => exact progress_pump hphase hwhole hcarried hopened hu (hi hphase)
    | main a now => exact progress_main hphase hwhole
    | delayOver => exact hflags _ hdelay (fun _ => rfl)
    | timer => exact hflags _ htimer (fun _ => rfl)
    | holdTimer => exact hflags _ hhold (fun _ => rfl)
    | cancel => exact hflags _ hcancel (fun _ => rfl)
  · obtain ⟨hpump, hphase⟩ := over_step i ho
    refine progress_same hpump (.inr ⟨⟨o, hphase⟩, ?_⟩) hwhole (fun d _ => hdone d)
    rw [hpump]
    exact hdone

end Progress

section Run
variable {s : Relay} {stream : Direction → Bytes}

theorem relay_cons (s : Relay) (i : Input) (inputs : List Input) :
    relay s (i :: inputs) = relay (relayStep s i) inputs := rfl

theorem relay_snoc (s : Relay) (inputs : List Input) (i : Input) :
    relay s (inputs ++ [i]) = relayStep (relay s inputs) i := by
  rw [relay, run_snoc]
  rfl

theorem relay_append (s : Relay) (inputs later : List Input) :
    relay s (inputs ++ later) = relay (relay s inputs) later := by
  rw [relay, run_append]
  rfl

theorem relay_advances (s : Relay) (inputs : List Input) (h : Undisturbed (relay s inputs)) :
    Undisturbed s := by
  induction inputs generalizing s with
  | nil => exact h
  | cons i inputs ih => exact undisturbed_of_advances (moves_advances (relayStep_moves s i)) (ih _ h)

def WritesSucceed (s : Relay) (inputs : List Input) : Prop :=
  ∀ (k : ℕ) (i : Input), inputs[k]? = some i → i.Succeeds (relay s (inputs.take k))

theorem writesSucceed_tail {i : Input} {inputs : List Input} (h : WritesSucceed s (i :: inputs)) :
    i.Succeeds s ∧ WritesSucceed (relayStep s i) inputs :=
  ⟨h 0 i rfl, fun k i' hi => h (k+1) i' hi⟩

/-- The run lemma of an undisturbed connection: a pump ends, or every step of it leaves
less to do. -/
theorem progress_run (inputs : List Input) (h : Relaying s)
    (hwhole : ∀ d, (s.pump d).Whole (stream d)) (hcarried : ∀ d, Carried s d (stream d))
    (hopened : Opened s) (hu : Undisturbed (relay s inputs)) (hw : WritesSucceed s inputs) :
    ∀ d, ((relay s inputs).pump d).Whole (stream d) ∧
      (((relay s inputs).pump d).stage = .done ∨ (s.pump d).stage ≠ .done ∧
        ((relay s inputs).pump d).work + inputs.countP (Input.steps d) ≤ (s.pump d).work) := by
  induction inputs generalizing s with
  | nil =>
    intro d
    refine ⟨hwhole d, ?_⟩
    by_cases hdone : (s.pump d).stage = .done
    · exact .inl hdone
    · exact .inr ⟨hdone, le_rfl⟩
  | cons i inputs ih =>
    obtain ⟨hi, hrest⟩ := writesSucceed_tail hw
    rw [relay_cons] at hu ⊢
    have hnow : Undisturbed s :=
      undisturbed_of_advances (moves_advances (relayStep_moves s i)) (relay_advances _ _ hu)
    have hstep := progress_step i h hwhole hcarried hopened hnow hi
    intro d
    obtain ⟨h1, h2⟩ := ih hstep.relaying hstep.whole (fun d => carried_step i (hcarried d))
      (opened_step i hopened) hu hrest d
    refine ⟨h1, h2.imp_right ?_⟩
    rintro ⟨hne, hwork⟩
    -- a pump that has not ended after the step had not ended before it
    have hbefore : (s.pump d).stage ≠ .done := fun hh => hne (hstep.ended d hh)
    refine ⟨hbefore, ?_⟩
    have hless := hstep.work d hbefore
    rw [List.countP_cons]
    omega

end Run

section Start
variable (decision : Decision) (info : Info) (flowID proxyID : String) (now : ℕ)
  (client upstream : Bytes)

def streams (client upstream : Bytes) : Direction → Bytes
  | .clientToUpstream => client
  | .upstreamToClient => upstream

theorem carried_start (d : Direction) :
    Carried (.start decision info flowID proxyID now client upstream) d (streams client upstream d) := by
  refine ⟨?_, ?_, ?_, ?_⟩
  · intro b hb
    have hempty : b = [] := by
      simp only [Relay.start] at hb
      split_ifs at hb
      · exact (Option.some.inj hb).symm
      · exact (Option.some.inj hb).symm
    subst hempty
    cases d <;> exact ⟨_, rfl, rfl⟩
  · simp only [Relay.start]
    split_ifs <;> simp
  · cases d <;> exact List.nil_prefix
  · simp only [Relay.start]
    split_ifs <;> simp

theorem recorded_start : Recorded (.start decision info flowID proxyID now client upstream) := by
  refine ⟨?_, ?_⟩
  · intro e hmem htype
    simp only [Relay.start, List.mem_cons, List.not_mem_nil, or_false] at hmem
    rcases hmem with rfl | rfl
    · cases htype
    · cases htype
  · simp only [Relay.start]
    split_ifs <;> simp

theorem carried_relay {s : Relay} {d : Direction} {stream : Bytes} (h : Carried s d stream)
    (inputs : List Input) : Carried (relay s inputs) d stream :=
  run_invariant _ (fun s => Carried s d stream) (fun _ i hs => carried_step i hs) s h inputs

theorem recorded_relay {s : Relay} (h : Recorded s) (inputs : List Input) : Recorded (relay s inputs) :=
  run_invariant _ Recorded (fun _ i hs => recorded_step i hs) s h inputs

theorem opened_relay {s : Relay} (h : Opened s) (inputs : List Input) : Opened (relay s inputs) :=
  run_invariant _ Opened (fun _ i hs => opened_step i hs) s h inputs

theorem whole_dialed {s s' : Relay} {d : Direction} {stream b : Bytes} (h : Carried s d stream)
    (hb : s.phase = .dialing b) (hpump : s'.pump = Function.update s.pump .clientToUpstream
      { s.pump .clientToUpstream with ahead := b }) : (s'.pump d).Whole stream := by
  obtain ⟨rest, hp, hrest⟩ := h.before b (by rw [hb]; rfl)
  rw [hpump]
  cases d with
  | clientToUpstream =>
    rw [Function.update_self, hp]
    exact ⟨hrest, by simp [Pump.start, Stage.last], by simp [Pump.start], by simp [Pump.start],
      by simp [Pump.start]⟩
  | upstreamToClient =>
    rw [Function.update_of_ne (by simp), hp]
    exact ⟨hrest, by simp [Pump.start, Stage.last], by simp [Pump.start], by simp [Pump.start],
      by simp [Pump.start]⟩

theorem whole_relay {s : Relay} {stream : Direction → Bytes} (hs : s.phase.buffer ≠ none)
    (hcarried : ∀ d, Carried s d (stream d)) (hopened : Opened s) (inputs : List Input)
    (hu : Undisturbed (relay s inputs)) (hw : WritesSucceed s inputs)
    (hphase : (relay s inputs).phase = .forwarding) (d : Direction) :
    ((relay s inputs).pump d).Whole (stream d) := by
  induction inputs using List.reverseRecOn generalizing d with
  | nil =>
    rw [show (relay s []).phase = s.phase from rfl] at hphase
    rw [hphase] at hs
    exact absurd rfl hs
  | append_singleton inputs i ih =>
    rw [relay_snoc] at hu hphase ⊢
    have hmoves := relayStep_moves (relay s inputs) i
    have hnow := undisturbed_of_advances (moves_advances hmoves) hu
    have hprev : WritesSucceed s inputs := by
      intro k j hj
      have hlt : k < inputs.length := (List.getElem?_eq_some_iff.mp hj).1
      have := hw k j (by rw [List.getElem?_append_left hlt, hj])
      rwa [List.take_append_of_le_length hlt.le] at this
    have hlast : i.Succeeds (relay s inputs) := by
      have := hw inputs.length i (by simp)
      rwa [List.take_append_of_le_length le_rfl, List.take_length] at this
    by_cases hbefore : (relay s inputs).phase = .forwarding
    · exact (progress_step i (.inl hbefore) (fun d => ih hnow hprev hbefore d)
        (fun d => carried_relay (hcarried d) inputs) (opened_relay hopened inputs) hnow hlast).whole d
    · -- the pumps start with this step
      generalize relayStep (relay s inputs) i = s' at hmoves hphase hu ⊢
      cases hmoves with
      | noted hn _ => exact absurd (hn.phase ▸ hphase) hbefore
      | fetched b n _ _ hb' _ _ =>
        rw [hphase] at hb'
        cases hb'
      | dialed b hb _ hpump _ _ => exact whole_dialed (carried_relay (hcarried d) inputs) hb hpump
      | pumped _ _ hf _ _ _ _ => exact absurd hf hbefore
      | finished => cases hphase

theorem work_pos {p : Pump} (h : p.stage ≠ .done) : 0 < p.work := by
  have hrank : 0 < p.stage.rank := by
    cases hstage : p.stage with
    | done => exact absurd hstage h
    | tail last => cases last <;> simp [Stage.rank]
    | _ => simp [Stage.rank]
  unfold Pump.work
  omega

/-- The pumps of an undisturbed connection get everything through, once each of them has
had enough steps. -/
theorem relay_complete {s : Relay} {stream : Direction → Bytes} (hs : s.phase.buffer ≠ none)
    (hcarried : ∀ d, Carried s d (stream d)) (hopened : Opened s) (inputs : List Input) (k : ℕ)
    (d : Direction) (hu : Undisturbed (relay s inputs)) (hw : WritesSucceed s inputs)
    (hphase : (relay s (inputs.take k)).phase = .forwarding)
    (hsteps : 20*(stream d).length + 9 ≤ (inputs.drop k).countP (Input.steps d)) :
    ((relay s inputs).pump d).stage = .done ∧ ((relay s inputs).pump d).written = stream d := by
  have hsplit : relay s inputs = relay (relay s (inputs.take k)) (inputs.drop k) := by
    rw [← relay_append, List.take_append_drop]
  have hk : WritesSucceed s (inputs.take k) := by
    intro j i hj
    rw [List.getElem?_take] at hj
    split_ifs at hj with hlt
    rw [List.take_take, min_eq_left hlt.le]
    exact hw j i hj
  have hlater : WritesSucceed (relay s (inputs.take k)) (inputs.drop k) := by
    intro j i hj
    rw [List.getElem?_drop] at hj
    have := hw (k+j) i hj
    rwa [List.take_add, relay_append] at this
  have hnow : Undisturbed (relay s (inputs.take k)) := by
    rw [hsplit] at hu
    exact relay_advances _ _ hu
  have hwhole := whole_relay hs hcarried hopened (inputs.take k) hnow hk hphase
  rw [hsplit] at hu ⊢
  obtain ⟨h1, h2⟩ := progress_run (inputs.drop k) (.inl hphase) hwhole
    (fun d => carried_relay (hcarried d) _) (opened_relay hopened _) hu hlater d
  have hdone : ((relay (relay s (inputs.take k)) (inputs.drop k)).pump d).stage = .done := by
    by_contra hne
    obtain ⟨-, hwork⟩ := h2.resolve_left hne
    have hle := work_le (hwhole d)
    have hpos := work_pos hne
    omega
  exact ⟨hdone, h1.done hdone⟩

end Start

structure TransferLaw (s : Relay) (stream : Direction → Bytes) (inputs : List Input) : Prop where
  /-- What was written in a direction is a beginning of its stream. -/
  sent : ∀ d, ((relay s inputs).pump d).written <+: stream d
  /-- At the end, the counts that are recorded are those of the bytes written. -/
  counted : ∀ e ∈ (relay s inputs).events, e.type = .flowFinished →
    e.clientBytes = ((relay s inputs).pump .clientToUpstream).written.length ∧
      e.upstreamBytes = ((relay s inputs).pump .upstreamToClient).written.length
  recorded : ∀ o, (relay s inputs).phase = .over o →
    ∃ e ∈ (relay s inputs).events, e.type = .flowFinished
  /-- Once the pumps have started, an undisturbed connection carries everything. -/
  complete : ∀ k d, Undisturbed (relay s inputs) → WritesSucceed s inputs →
    (relay s (inputs.take k)).phase = .forwarding →
    20*(stream d).length + 9 ≤ (inputs.drop k).countP (Input.steps d) →
    ((relay s inputs).pump d).stage = .done ∧ ((relay s inputs).pump d).written = stream d

theorem transfer_law (decision : Decision) (info : Info) (flowID proxyID : String) (now : ℕ)
    (client upstream : Bytes) (inputs : List Input) :
    TransferLaw (.start decision info flowID proxyID now client upstream) (streams client upstream)
      inputs := by
  have hcarried := carried_start decision info flowID proxyID now client upstream
  have hrecorded := recorded_relay
    (recorded_start decision info flowID proxyID now client upstream) inputs
  refine ⟨fun d => (carried_relay (hcarried d) inputs).sent, ?_, hrecorded.finished, ?_⟩
  · intro e hmem htype
    obtain ⟨⟨o, ho⟩, h1, h2⟩ := hrecorded.counts e hmem htype
    rw [h1, h2]
    exact ⟨(carried_relay (hcarried .clientToUpstream) inputs).after o ho,
      (carried_relay (hcarried .upstreamToClient) inputs).after o ho⟩
  · intro k d
    refine relay_complete ?_ hcarried (fun _ => rfl) inputs k d
    simp only [Relay.start]
    split_ifs <;> simp [Phase.buffer]

def sampleDelayed : Relay :=
  .start ⟨"tcp", "slow", 1, true, Selector.zero, { Fault.zero with
    phase := "on_connect", action := "delay_connect", duration := some 1000000000 }⟩
    ⟨"run", 1, true, 0, 0, 0⟩ "flow" "tcp" 0 (bytesOf "hello") []

def sampleEarlyEnd : List Input := [.main ⟨5, false, false⟩ 1, .main ⟨0, true, false⟩ 2]

theorem over_relay {s : Relay} {o : String} (h : s.phase = .over o) (inputs : List Input) :
    (relay s inputs).pump = s.pump ∧ (relay s inputs).phase = .over o :=
  run_invariant _ (fun s' => s'.pump = s.pump ∧ s'.phase = .over o)
    (fun s' i hs => by
      obtain ⟨h1, h2⟩ := over_step i hs.2
      exact ⟨h1.trans hs.1, h2⟩) s ⟨rfl, h⟩ inputs

/-- A stream that ends during the delay is not forwarded at all, although nothing
disturbs the connection and no write fails. -/
theorem early_end_unforwarded : Undisturbed (relay sampleDelayed sampleEarlyEnd) ∧
    WritesSucceed sampleDelayed sampleEarlyEnd ∧
    (relay sampleDelayed sampleEarlyEnd).phase = .over "client_closed" ∧
    ((relay sampleDelayed sampleEarlyEnd).pump .clientToUpstream).rest = [] ∧
    ∀ more, ((relay sampleDelayed (sampleEarlyEnd ++ more)).pump .clientToUpstream).written = [] := by
  have hover : (relay sampleDelayed sampleEarlyEnd).phase = .over "client_closed" := by decide +kernel
  refine ⟨⟨by decide +kernel, by decide +kernel⟩, ?_, hover, by decide +kernel, ?_⟩
  · intro k i hi
    have hmem := List.mem_of_getElem? hi
    simp only [sampleEarlyEnd, List.mem_cons, List.not_mem_nil, or_false] at hmem
    rcases hmem with rfl | rfl
    · trivial
    · trivial
  · intro more
    rw [relay_append, (over_relay hover more).1]
    decide +kernel

end Faultline.TCP
