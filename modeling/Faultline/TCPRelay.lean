import Faultline.TCPPump

/-! The steps of a TCP connection, what each of them can do, and what they keep: the
bytes of either direction stay in order, and the end of the flow is recorded once with
the final counts. -/
namespace Faultline.TCP

structure Noted (s s' : Relay) : Prop where
  pump : s'.pump = s.pump
  phase : s'.phase = s.phase
  events : s'.events = s.events ∨ s'.events = s.events ++ [s.event.asApplied]

theorem noted_refl (s : Relay) : Noted s s := ⟨rfl, rfl, .inl rfl⟩

theorem activate_noted (s : Relay) (f : Fault) : Noted s (s.activate f) := by
  unfold Relay.activate
  split_ifs
  · exact noted_refl s
  · exact ⟨rfl, rfl, .inr rfl⟩

theorem reachedBytes_noted (s : Relay) (d : Direction) (count : ℕ) : Noted s (s.reachedBytes d count) := by
  unfold Relay.reachedBytes
  split
  · exact noted_refl s
  · split
    · exact noted_refl s
    · split_ifs
      · exact activate_noted s _
      · exact noted_refl s

/-- The flags of a connection only rise, and its connections are closed by the context,
by `close_connection` or at the end of a `hold`. -/
structure Advances (s s' : Relay) : Prop where
  decision : s'.decision = s.decision
  cancelled : s.cancelled = true → s'.cancelled = true
  active : s.active = true → s'.active = true
  closed : s'.closed = true → s.closed = true ∨ s'.cancelled = true ∨ s'.active = true ∧
    (s.decision.fault.action = "close_connection" ∨ s.decision.fault.action = "hold")

theorem advances_refl (s : Relay) : Advances s s := ⟨rfl, id, id, .inl⟩

theorem fault_some {s : Relay} {f : Fault} (h : s.fault = some f) : f = s.decision.fault := by
  unfold Relay.fault at h
  split_ifs at h
  exact (Option.some.inj h).symm

theorem activate_advances {s : Relay} {f : Fault} (hf : s.fault = some f) : Advances s (s.activate f) := by
  have hsame := fault_some hf
  subst hsame
  unfold Relay.activate
  split_ifs with hactive
  · exact advances_refl s
  · refine ⟨rfl, id, fun _ => rfl, ?_⟩
    intro hclosed
    change (s.closed || decide (s.decision.fault.action = "close_connection")) = true at hclosed
    rw [Bool.or_eq_true, decide_eq_true_eq] at hclosed
    exact hclosed.imp_right (fun h => .inr ⟨rfl, .inl h⟩)

theorem reachedBytes_advances (s : Relay) (d : Direction) (count : ℕ) :
    Advances s (s.reachedBytes d count) := by
  unfold Relay.reachedBytes
  split
  · exact advances_refl s
  · rename_i f hf
    split
    · exact advances_refl s
    · split_ifs
      · exact activate_advances hf
      · exact advances_refl s

theorem blocked_advances {s s' : Relay} (h : Advances s s') (d : Direction) :
    s.blocked d = true → s'.blocked d = true := by
  have hfault : s'.fault = s.fault := by
    unfold Relay.fault
    rw [h.decision]
  unfold Relay.blocked
  rw [hfault]
  split
  · exact id
  · simp only [Bool.and_eq_true]
    rintro ⟨⟨hactive, h1⟩, h2⟩
    exact ⟨⟨h.active hactive, h1⟩, h2⟩

/-- The bytes that `serve` has read before the pumps start. -/
def Phase.buffer : Phase → Option Bytes
  | .waiting b => some b
  | .full b => some b
  | .dialing b => some b
  | _ => none

inductive Moves (s : Relay) : Relay → Prop
  /-- A flag changes. -/
  | noted {s'} (h : Noted s s') (ha : Advances s s') : Moves s s'
  /-- Before the dial, some bytes of the client are read. -/
  | fetched {s'} (b : Bytes) (n : ℕ) (hb : s.phase.buffer = some b) (hpump : s'.pump = (s.take .clientToUpstream n).pump)
      (hb' : s'.phase.buffer = some (b ++ (s.pump .clientToUpstream).rest.take n))
      (he : s'.events = s.events ∨ s'.events = s.events ++ [s.event.asApplied])
      (ha : Advances s s') : Moves s s'
  /-- The dial succeeds and the pumps start. -/
  | dialed {s'} (b : Bytes) (hb : s.phase = .dialing b) (hphase : s'.phase = .forwarding)
      (hpump : s'.pump = Function.update s.pump .clientToUpstream
        { s.pump .clientToUpstream with ahead := b })
      (he : s'.events = s.events ∨ s'.events = s.events ++ [s.event.asApplied])
      (ha : Advances s s') : Moves s s'
  /-- A pump takes a step. -/
  | pumped {s'} (d : Direction) (a : Answer) (hphase : s.phase = .forwarding) (hphase' : s'.phase = .forwarding)
      (hpump : s'.pump = Function.update s.pump d (pumpStep s d (s.pump d) a))
      (he : s'.events = s.events ∨ s'.events = s.events ++ [s.event.asApplied])
      (ha : Advances s s') : Moves s s'
  /-- Serving ends, before the pumps started or after both of them. -/
  | finished (n : ℕ) (outcome : String) (now : ℕ)
      (hend : s.phase.buffer ≠ none ∨ s.phase = .forwarding ∧ n = 0 ∧ ∀ d, (s.pump d).stage = .done) :
      Moves s ((s.take .clientToUpstream n).finish outcome now)

theorem take_zero (s : Relay) (d : Direction) : s.take d 0 = s := by
  simp [Relay.take]

theorem wait_moves (s : Relay) (b : Bytes) (a : Answer) (now : ℕ) (h : s.phase = .waiting b) :
    Moves s (s.wait b a now) := by
  have hbuffer : s.phase.buffer = some b := by rw [h]; rfl
  have hsome : s.phase.buffer ≠ none := by simp [hbuffer]
  unfold Relay.wait
  simp only
  split_ifs
  · exact .finished _ _ _ (.inl hsome)
  · exact .fetched b _ hbuffer rfl rfl (.inr rfl) ⟨rfl, id, id, .inl⟩
  · exact .finished _ _ _ (.inl hsome)
  · exact .fetched b _ hbuffer rfl rfl (.inl rfl) ⟨rfl, id, id, .inl⟩
  · exact .fetched b _ hbuffer rfl rfl (.inl rfl) ⟨rfl, id, id, .inl⟩

theorem forward_moves (s : Relay) (b : Bytes) (h : s.phase = .dialing b) : Moves s (s.forward b) := by
  unfold Relay.forward
  simp only
  split
  · exact .dialed b h rfl rfl (.inl rfl) ⟨rfl, id, id, .inl⟩
  · rename_i f hf
    split_ifs
    · have hnoted := activate_noted { s with
        phase := .forwarding
        pump := Function.update s.pump .clientToUpstream
          { s.pump .clientToUpstream with ahead := b } } f
      refine .dialed b h hnoted.phase hnoted.pump hnoted.events ?_
      obtain ⟨h1, h2, h3, h4⟩ := activate_advances (s := { s with
        phase := .forwarding
        pump := Function.update s.pump .clientToUpstream
          { s.pump .clientToUpstream with ahead := b } }) hf
      exact ⟨h1, h2, h3, h4⟩
    · exact .dialed b h rfl rfl (.inl rfl) ⟨rfl, id, id, .inl⟩

theorem mainStep_moves (s : Relay) (a : Answer) (now : ℕ) : Moves s (mainStep s a now) := by
  unfold mainStep
  split
  · rename_i b hb
    exact wait_moves s b a now hb
  · rename_i b hb
    have hbuffer : s.phase.buffer = some b := by rw [hb]; rfl
    split_ifs
    · have hfin := Moves.finished (s := s) 0 "client_closed" now (.inl (by simp [hbuffer]))
      rwa [take_zero] at hfin
    · refine .fetched b 0 hbuffer ?_ ?_ (.inr rfl) ⟨rfl, id, id, .inl⟩
      · rw [take_zero]
        rfl
      · rw [List.take_zero, List.append_nil]
        rfl
    · exact .noted (noted_refl s) (advances_refl s)
  · rename_i b hb
    split_ifs
    · have hfin := Moves.finished (s := s) 0 "dial_error" now (.inl (by simp [hb, Phase.buffer]))
      rwa [take_zero] at hfin
    · exact forward_moves s b hb
  · rename_i hphase
    by_cases hdone : (s.pump .clientToUpstream).stage = .done ∧ (s.pump .upstreamToClient).stage = .done
    · have hboth : ∀ d, (s.pump d).stage = .done := by
        intro d
        cases d
        · exact hdone.1
        · exact hdone.2
      have hfin := Moves.finished (s := s) 0
        (if s.active = true then s.decision.fault.action else "forwarded") now
        (.inr ⟨hphase, rfl, hboth⟩)
      rw [take_zero] at hfin
      rwa [if_pos hdone]
    · rw [if_neg hdone]
      exact .noted (noted_refl s) (advances_refl s)
  · exact .noted (noted_refl s) (advances_refl s)

theorem relayStep_moves (s : Relay) (i : Input) : Moves s (relayStep s i) := by
  cases i with
  | main a now => exact mainStep_moves s a now
  | pump d a =>
    simp only [relayStep]
    split_ifs with hphase
    · split
      · have hnoted := reachedBytes_noted { s with
          pump := Function.update s.pump d (pumpStep s d (s.pump d) a) } d
          (pumpStep s d (s.pump d) a).count
        obtain ⟨h1, h2, h3, h4⟩ := reachedBytes_advances { s with
          pump := Function.update s.pump d (pumpStep s d (s.pump d) a) } d
          (pumpStep s d (s.pump d) a).count
        exact .pumped d a hphase (hnoted.phase.trans hphase) hnoted.pump hnoted.events ⟨h1, h2, h3, h4⟩
      · exact .pumped d a hphase hphase rfl (.inl rfl) ⟨rfl, id, id, .inl⟩
    · exact .noted (noted_refl s) (advances_refl s)
  | delayOver => exact .noted ⟨rfl, rfl, .inl rfl⟩ ⟨rfl, id, id, .inl⟩
  | timer =>
    simp only [relayStep]
    split
    · exact .noted (noted_refl s) (advances_refl s)
    · rename_i f hf
      split_ifs
      · exact .noted (activate_noted s f) (activate_advances hf)
      · exact .noted (noted_refl s) (advances_refl s)
  | holdTimer =>
    simp only [relayStep]
    split_ifs with hhold
    · exact .noted ⟨rfl, rfl, .inl rfl⟩ ⟨rfl, id, id, fun _ => .inr (.inr ⟨hhold.1, .inr hhold.2⟩)⟩
    · exact .noted (noted_refl s) (advances_refl s)
  | cancel => exact .noted ⟨rfl, rfl, .inl rfl⟩ ⟨rfl, fun _ => rfl, id, fun _ => .inr (.inl rfl)⟩

theorem moves_advances {s s' : Relay} (h : Moves s s') : Advances s s' := by
  cases h with
  | noted _ ha => exact ha
  | fetched _ _ _ _ _ _ ha => exact ha
  | dialed _ _ _ _ _ ha => exact ha
  | pumped _ _ _ _ _ _ ha => exact ha
  | finished => exact ⟨rfl, id, id, .inl⟩

def readAhead (b : Bytes) : Direction → Bytes
  | .clientToUpstream => b
  | .upstreamToClient => []

/-- One direction of a connection: nothing is written before the pumps start, which then
carry a part of the stream from its beginning. -/
structure Carried (s : Relay) (d : Direction) (stream : Bytes) : Prop where
  before : ∀ b, s.phase.buffer = some b → ∃ rest, s.pump d = .start rest ∧ readAhead b d ++ rest = stream
  during : s.phase = .forwarding → (s.pump d).Sound (s.blocked d) stream
  sent : (s.pump d).written <+: stream
  after : ∀ o, s.phase = .over o → (s.pump d).count = (s.pump d).written.length

theorem take_pump (s : Relay) (n : ℕ) (d : Direction) :
    ((s.take .clientToUpstream n).pump d).written = (s.pump d).written ∧
      ((s.take .clientToUpstream n).pump d).count = (s.pump d).count := by
  cases d
  · simp [Relay.take]
  · simp [Relay.take]

theorem carried_fetched {s s' : Relay} {d : Direction} {stream b : Bytes} {n : ℕ} (h : Carried s d stream)
    (hb : s.phase.buffer = some b) (hpump : s'.pump = (s.take .clientToUpstream n).pump)
    (hb' : s'.phase.buffer = some (b ++ (s.pump .clientToUpstream).rest.take n)) :
    Carried s' d stream := by
  obtain ⟨rest, hp, hrest⟩ := h.before b hb
  refine ⟨?_, ?_, ?_, ?_⟩
  · intro c hc
    rw [hb'] at hc
    cases hc
    rw [hpump]
    cases d with
    | clientToUpstream =>
      refine ⟨rest.drop n, ?_, ?_⟩
      · simp [Relay.take, hp, Pump.start]
      · rw [hp]
        change b ++ rest.take n ++ rest.drop n = stream
        rw [List.append_assoc, List.take_append_drop]
        exact hrest
    | upstreamToClient =>
      refine ⟨rest, ?_, hrest⟩
      simp [Relay.take, hp]
  · intro hphase
    rw [hphase] at hb'
    cases hb'
  · rw [hpump, (take_pump s n d).1]
    exact h.sent
  · intro o ho
    rw [ho] at hb'
    cases hb'

theorem carried_dialed {s s' : Relay} {d : Direction} {stream b : Bytes} (h : Carried s d stream)
    (hb : s.phase = .dialing b) (hphase : s'.phase = .forwarding)
    (hpump : s'.pump = Function.update s.pump .clientToUpstream
      { s.pump .clientToUpstream with ahead := b }) : Carried s' d stream := by
  obtain ⟨rest, hp, hrest⟩ := h.before b (by rw [hb]; rfl)
  have hsound : (s'.pump d).Sound (s'.blocked d) stream := by
    rw [hpump]
    cases d with
    | clientToUpstream =>
      rw [Function.update_self, hp]
      exact ⟨.inl hrest, rfl, rfl⟩
    | upstreamToClient =>
      rw [Function.update_of_ne (by simp), hp]
      exact ⟨.inl hrest, rfl, rfl⟩
  refine ⟨?_, fun _ => hsound, hsound.sent, ?_⟩
  · intro c hc
    rw [hphase] at hc
    cases hc
  · intro o ho
    rw [hphase] at ho
    cases ho

theorem carried_pumped {s s' : Relay} {d d' : Direction} {stream : Bytes} {a : Answer}
    (h : Carried s d stream) (hphase : s.phase = .forwarding) (hphase' : s'.phase = .forwarding)
    (hpump : s'.pump = Function.update s.pump d' (pumpStep s d' (s.pump d') a)) (ha : Advances s s') :
    Carried s' d stream := by
  have hsound : (s'.pump d).Sound (s'.blocked d) stream := by
    refine Pump.Sound.mono ?_ (blocked_advances ha d)
    rw [hpump]
    by_cases hd : d = d'
    · subst hd
      rw [Function.update_self]
      exact pumpStep_sound a (h.during hphase)
    · rw [Function.update_of_ne hd]
      exact h.during hphase
  refine ⟨?_, fun _ => hsound, hsound.sent, ?_⟩
  · intro c hc
    rw [hphase'] at hc
    cases hc
  · intro o ho
    rw [hphase'] at ho
    cases ho

theorem carried_finished {s : Relay} {d : Direction} {stream : Bytes} {n : ℕ} {outcome : String} {now : ℕ}
    (h : Carried s d stream)
    (hend : s.phase.buffer ≠ none ∨ s.phase = .forwarding ∧ n = 0 ∧ ∀ d, (s.pump d).stage = .done) :
    Carried ((s.take .clientToUpstream n).finish outcome now) d stream := by
  obtain ⟨hwritten, hcount⟩ := take_pump s n d
  have hcounted : (s.pump d).count = (s.pump d).written.length := by
    rcases hend with hbuffer | ⟨hphase, -, hdone⟩
    · obtain ⟨b, hb⟩ := Option.ne_none_iff_exists'.mp hbuffer
      obtain ⟨rest, hp, -⟩ := h.before b hb
      rw [hp]
      rfl
    · have := (h.during hphase).counted
      rwa [hdone d] at this
  refine ⟨fun b hb => (by cases hb), fun hf => (by cases hf), ?_, fun o _ => ?_⟩
  · change ((s.take .clientToUpstream n).pump d).written <+: stream
    rw [hwritten]
    exact h.sent
  · change ((s.take .clientToUpstream n).pump d).count = ((s.take .clientToUpstream n).pump d).written.length
    rw [hcount, hwritten, hcounted]

theorem carried_moves {s s' : Relay} {d : Direction} {stream : Bytes} (hmoves : Moves s s')
    (h : Carried s d stream) : Carried s' d stream := by
  cases hmoves with
  | noted hn ha =>
    refine ⟨?_, ?_, ?_, ?_⟩
    · rw [hn.phase, hn.pump]
      exact h.before
    · rw [hn.phase, hn.pump]
      exact fun hphase => (h.during hphase).mono (blocked_advances ha d)
    · rw [hn.pump]
      exact h.sent
    · rw [hn.phase, hn.pump]
      exact h.after
  | fetched b n hb hpump hb' _ _ => exact carried_fetched h hb hpump hb'
  | dialed b hb hphase hpump _ _ => exact carried_dialed h hb hphase hpump
  | pumped d' a hphase hphase' hpump _ ha => exact carried_pumped h hphase hphase' hpump ha
  | finished n outcome now hend => exact carried_finished h hend

theorem carried_step {s : Relay} {d : Direction} {stream : Bytes} (i : Input) (h : Carried s d stream) :
    Carried (relayStep s i) d stream :=
  carried_moves (relayStep_moves s i) h

structure Recorded (s : Relay) : Prop where
  counts : ∀ e ∈ s.events, e.type = .flowFinished → (∃ o, s.phase = .over o) ∧
    e.clientBytes = (s.pump .clientToUpstream).count ∧ e.upstreamBytes = (s.pump .upstreamToClient).count
  finished : ∀ o, s.phase = .over o → ∃ e ∈ s.events, e.type = .flowFinished

theorem Recorded.unfinished {s : Relay} (h : Recorded s) (hphase : ∀ o, s.phase ≠ .over o) :
    ∀ e ∈ s.events, e.type ≠ .flowFinished := by
  intro e hmem htype
  obtain ⟨⟨o, ho⟩, -⟩ := h.counts e hmem htype
  exact hphase o ho

theorem recorded_kept {s s' : Relay} (h : Recorded s) (hphase : ∀ o, s.phase ≠ .over o)
    (hphase' : ∀ o, s'.phase ≠ .over o)
    (he : s'.events = s.events ∨ s'.events = s.events ++ [s.event.asApplied]) : Recorded s' := by
  have hnone := h.unfinished hphase
  refine ⟨?_, fun o ho => absurd ho (hphase' o)⟩
  intro e hmem htype
  rcases he with he | he
  · rw [he] at hmem
    exact absurd htype (hnone e hmem)
  · rw [he, List.mem_append, List.mem_singleton] at hmem
    rcases hmem with hmem | rfl
    · exact absurd htype (hnone e hmem)
    · cases htype

theorem recorded_noted {s s' : Relay} (h : Recorded s) (hn : Noted s s') : Recorded s' := by
  refine ⟨?_, ?_⟩
  · intro e hmem htype
    rw [hn.phase, hn.pump]
    rcases hn.events with he | he
    · rw [he] at hmem
      exact h.counts e hmem htype
    · rw [he, List.mem_append, List.mem_singleton] at hmem
      rcases hmem with hmem | rfl
      · exact h.counts e hmem htype
      · cases htype
  · intro o ho
    rw [hn.phase] at ho
    obtain ⟨e, hmem, htype⟩ := h.finished o ho
    refine ⟨e, ?_, htype⟩
    rcases hn.events with he | he
    · rwa [he]
    · rw [he]
      exact List.mem_append_left _ hmem

theorem buffer_not_over {phase : Phase} (h : phase.buffer ≠ none) (o : String) : phase ≠ .over o := by
  rintro rfl
  exact h rfl

theorem recorded_step {s : Relay} (i : Input) (h : Recorded s) : Recorded (relayStep s i) := by
  have hmoves := relayStep_moves s i
  generalize relayStep s i = s' at hmoves
  cases hmoves with
  | noted hn _ => exact recorded_noted h hn
  | fetched b n hb _ hb' he _ =>
    exact recorded_kept h (buffer_not_over (by simp [hb])) (buffer_not_over (by simp [hb'])) he
  | dialed b hb hphase _ he _ => exact recorded_kept h (by simp [hb]) (by simp [hphase]) he
  | pumped _ _ hphase hphase' _ he _ => exact recorded_kept h (by simp [hphase]) (by simp [hphase']) he
  | finished n outcome now hend =>
    have hphase : ∀ o, s.phase ≠ .over o := by
      rcases hend with hbuffer | ⟨hf, -⟩
      · exact buffer_not_over hbuffer
      · simp [hf]
    have hnone := h.unfinished hphase
    refine ⟨?_, fun o _ => ⟨_, List.mem_append_right _ (List.mem_singleton_self _), rfl⟩⟩
    intro e hmem htype
    rcases List.mem_append.mp hmem with hmem | hmem
    · exact absurd htype (hnone e hmem)
    · rw [List.mem_singleton.mp hmem]
      exact ⟨⟨outcome, rfl⟩, rfl, rfl⟩

end Faultline.TCP
