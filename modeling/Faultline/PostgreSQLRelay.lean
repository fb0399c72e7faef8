import Faultline.PostgreSQLCommit

/-! What a PostgreSQL session writes: the frames that it receives, in their order and
unchanged, up to the point where the session ends. -/
namespace Faultline.PostgreSQL

/-- What one step adds to a connection: the frame that it received for it, or, in the step
that ends the session, a part of that frame or of a message of its own. -/
def Adds (own : Bytes) (frame : Option Frame) (closed : Bool) (old new : Bytes) : Prop :=
  closed = false ∧ new = old ++ frame.toList.flatMap Frame.bytes ∨
    closed = true ∧ ∃ t, new = old ++ t ∧ (t <+: own ∨ ∃ f, frame = some f ∧ t <+: f.bytes)

section Steps
variable {s : Session} {f : Frame} {m : Moment} {own : Bytes} {frame : Option Frame} {b : Bytes}

theorem adds_nothing : Adds own frame true b b :=
  .inr ⟨rfl, [], (List.append_nil b).symm, .inl List.nil_prefix⟩

theorem adds_none (closed : Bool) : Adds own none closed b b := by
  cases closed
  · exact .inl ⟨rfl, (List.append_nil b).symm⟩
  · exact adds_nothing

theorem refuse_adds :
    Adds rejection.bytes frame (s.refuse m).closed s.client.written (s.refuse m).client.written := by
  obtain ⟨t, ht, hw, -⟩ := s.client.write_written rejection.bytes
  simp only [Session.refuse, Session.close, finish_client]
  exact .inr ⟨rfl, t, hw, .inl ht⟩

theorem refuse_upstream : (s.refuse m).upstream = s.upstream := by
  simp [Session.refuse, Session.close]

theorem toClient_adds (hopen : s.closed = false) : Adds own (some f) (s.toClient f m).closed
    s.client.written (s.toClient f m).client.written := by
  obtain ⟨t, ht, hw, hall⟩ := s.client.write_written f.bytes
  unfold Session.toClient
  split_ifs with hok
  · refine .inl ⟨hopen, ?_⟩
    simp [hw, hall hok]
  · simp only [Session.close, finish_client]
    exact .inr ⟨rfl, t, hw, .inr ⟨f, rfl, ht⟩⟩

theorem toClient_upstream : (s.toClient f m).upstream = s.upstream := by
  unfold Session.toClient
  split_ifs
  · rfl
  · simp [Session.close]

theorem toUpstream_adds (hopen : s.closed = false) : Adds own (some f) (s.toUpstream f m).closed
    s.upstream.written (s.toUpstream f m).upstream.written := by
  obtain ⟨t, ht, hw, hall⟩ := s.upstream.write_written f.bytes
  unfold Session.toUpstream
  split_ifs with hok
  · refine .inl ⟨hopen, ?_⟩
    simp [hw, hall hok]
  · simp only [Session.close, finish_upstream]
    exact .inr ⟨rfl, t, hw, .inr ⟨f, rfl, ht⟩⟩

theorem toUpstream_client : (s.toUpstream f m).client = s.client := by
  unfold Session.toUpstream
  split_ifs
  · rfl
  · simp [Session.close]

theorem cycleStep_adds (hopen : s.closed = false) :
    Adds rejection.bytes none (cycleStep s f m).closed s.client.written
      (cycleStep s f m).client.written ∧
    Adds [] (some f) (cycleStep s f m).closed s.upstream.written (cycleStep s f m).upstream.written := by
  unfold cycleStep
  split_ifs
  · rw [refuse_upstream]
    exact ⟨refuse_adds, adds_nothing⟩
  · rw [toUpstream_client]
    exact ⟨adds_none _, toUpstream_adds hopen⟩

theorem frontStep_adds (e : Endpoint) (hopen : s.closed = false) :
    Adds rejection.bytes none (frontStep e s f m).closed s.client.written
      (frontStep e s f m).client.written ∧
    Adds [] (some f) (frontStep e s f m).closed s.upstream.written
      (frontStep e s f m).upstream.written := by
  unfold frontStep
  split_ifs
  · simp only [Session.close, finish_client, finish_upstream]
    exact ⟨adds_nothing, adds_nothing⟩
  · rw [refuse_upstream]
    exact ⟨refuse_adds, adds_nothing⟩
  · exact cycleStep_adds hopen
  · exact cycleStep_adds (s := s.startCycle e m) hopen

theorem readyStep_adds (hopen : s.closed = false) :
    Adds rejection.bytes (some f) (readyStep s f m).closed s.client.written
      (readyStep s f m).client.written ∧
    (readyStep s f m).upstream = s.upstream := by
  obtain ⟨t, ht, hw, hall⟩ := s.client.write_written f.bytes
  unfold readyStep
  split_ifs with hbad hok
  · exact ⟨refuse_adds, refuse_upstream⟩
  · simp only [finish_closed, finish_client, finish_upstream]
    refine ⟨.inl ⟨hopen, ?_⟩, trivial⟩
    simp [hw, hall hok]
  · simp only [Session.close, finish_client, finish_upstream]
    exact ⟨.inr ⟨rfl, t, hw, .inr ⟨f, rfl, ht⟩⟩, trivial⟩

def Decision.Passes (d : Decision) (m : Moment) : Prop :=
  d.selected = true → applyFault m.elapsed d.fault = some true

theorem decide_frame (e : Endpoint) (s : Session) : (s.decide e).2.client = s.client ∧
    (s.decide e).2.upstream = s.upstream ∧ (s.decide e).2.closed = s.closed := by
  unfold Session.decide
  split <;> exact ⟨rfl, rfl, rfl⟩

theorem commitStep_passes (e : Endpoint) (h : Decision.Passes (s.decide e).1 m) :
    ∃ s' : Session, s'.client = s.client ∧ s'.upstream = s.upstream ∧ s'.closed = s.closed ∧
      (commitStep e s f m).2 = s'.toClient f m := by
  obtain ⟨h1, h2, h3⟩ := decide_frame e s
  unfold commitStep
  simp only
  by_cases hsel : (s.decide e).1.selected = true
  · rw [if_pos hsel, h hsel]
    exact ⟨(s.decide e).2.record (s.decide e).2.event.asApplied, h1, h2, h3, rfl⟩
  · rw [if_neg hsel]
    exact ⟨_, h1, h2, h3, rfl⟩

theorem commitStep_withheld (e : Endpoint) (h : ¬ Decision.Passes (s.decide e).1 m) :
    (commitStep e s f m).2.closed = true ∧ (commitStep e s f m).2.client = s.client ∧
      (commitStep e s f m).2.upstream = s.upstream := by
  obtain ⟨h1, h2, -⟩ := decide_frame e s
  unfold Decision.Passes at h
  push Not at h
  unfold commitStep
  simp only [h.1, if_true]
  split
  · rename_i htrue
    exact (h.2 htrue).elim
  · simp only [finish_client, finish_upstream]
    exact ⟨trivial, h1, h2⟩
  · simp only [Session.close, finish_client, finish_upstream]
    exact ⟨trivial, h1, h2⟩

theorem commitStep_adds (e : Endpoint) (hopen : s.closed = false) :
    Adds rejection.bytes (some f) (commitStep e s f m).2.closed s.client.written
      (commitStep e s f m).2.client.written ∧
    (commitStep e s f m).2.upstream = s.upstream := by
  by_cases hpass : Decision.Passes (s.decide e).1 m
  · obtain ⟨s', h1, h2, h3, h4⟩ := commitStep_passes (f := f) e hpass
    rw [h4, ← h1, ← h2]
    exact ⟨toClient_adds (h3.trans hopen), toClient_upstream⟩
  · obtain ⟨h1, h2, h3⟩ := commitStep_withheld (f := f) e hpass
    rw [h1, h2]
    exact ⟨adds_nothing, h3⟩

theorem backStep_adds (e : Endpoint) (hopen : s.closed = false) :
    Adds rejection.bytes (some f) (backStep e s f m).2.closed s.client.written
      (backStep e s f m).2.client.written ∧
    (backStep e s f m).2.upstream = s.upstream := by
  rw [backStep_eq]
  split_ifs
  · exact commitStep_adds e hopen
  · exact readyStep_adds hopen
  · exact ⟨toClient_adds (s := s.observe f) hopen, toClient_upstream⟩
  · exact ⟨refuse_adds, refuse_upstream⟩

end Steps

/-- The bytes on a connection: those of the first of the received frames, of all of them
as long as the session is open, and then at most a part of the next frame or of a message
of its own. -/
def Relayed (own : Bytes) (received : List Frame) (closed : Bool) (first written : Bytes) : Prop :=
  ∃ n t, n ≤ received.length ∧ written = first ++ (received.take n).flatMap Frame.bytes ++ t ∧
    (closed = false → n = received.length ∧ t = []) ∧
    (t <+: own ∨ ∃ f, received[n]? = some f ∧ t <+: f.bytes)

theorem Relayed.step {own : Bytes} {received : List Frame} {first written new : Bytes}
    {frame : Option Frame} {closed : Bool} (h : Relayed own received false first written)
    (hadds : Adds own frame closed written new) :
    Relayed own (received ++ frame.toList) closed first new := by
  obtain ⟨n, t, -, hw, hall, -⟩ := h
  obtain ⟨rfl, rfl⟩ := hall rfl
  rw [List.take_length, List.append_nil] at hw
  rcases hadds with ⟨rfl, rfl⟩ | ⟨rfl, t, rfl, ht⟩
  · refine ⟨_, [], le_rfl, ?_, fun _ => ⟨rfl, rfl⟩, .inl List.nil_prefix⟩
    rw [List.take_length, List.flatMap_append, hw, List.append_nil, List.append_assoc]
  · refine ⟨received.length, t, by simp, ?_, fun hh => (by cases hh), ht.imp_right ?_⟩
    · rw [List.take_append_of_le_length le_rfl, List.take_length, hw]
    · rintro ⟨f, rfl, hf⟩
      exact ⟨f, by simp, hf⟩

theorem Relayed.later {own : Bytes} {received : List Frame} {first written : Bytes}
    (h : Relayed own received true first written) (more : List Frame) :
    Relayed own (received ++ more) true first written := by
  obtain ⟨n, t, hn, hw, -, ht⟩ := h
  refine ⟨n, t, by simp; omega, ?_, fun hh => (by cases hh), ht.imp_right ?_⟩
  · rw [List.take_append_of_le_length hn, hw]
  · rintro ⟨f, hf, hprefix⟩
    have hlt : n < received.length := (List.getElem?_eq_some_iff.mp hf).1
    exact ⟨f, by rw [List.getElem?_append_left hlt, hf], hprefix⟩

def Input.backFrame : Input → Option Frame
  | .back f _ => some f
  | _ => none

def Input.frontFrame : Input → Option Frame
  | .front f _ => some f
  | _ => none

def backs (inputs : List Input) : List Frame := inputs.filterMap Input.backFrame

def fronts (inputs : List Input) : List Frame := inputs.filterMap Input.frontFrame

theorem filterMap_snoc {α β : Type} (g : α → Option β) (l : List α) (a : α) :
    (l ++ [a]).filterMap g = l.filterMap g ++ (g a).toList := by
  cases h : g a <;> simp [h]

section Run
variable {e : Endpoint} {s : Session}

theorem exchangeStep_adds (i : Input) (hopen : s.closed = false) :
    Adds rejection.bytes i.backFrame (exchangeStep e s i).2.closed s.client.written
      (exchangeStep e s i).2.client.written ∧
    Adds [] i.frontFrame (exchangeStep e s i).2.closed s.upstream.written
      (exchangeStep e s i).2.upstream.written := by
  cases i with
  | control op => exact ⟨adds_none _, adds_none _⟩
  | done m =>
    simp only [exchangeStep, hopen, Bool.false_eq_true, if_false, Session.close, finish_client,
      finish_upstream]
    exact ⟨adds_nothing, adds_nothing⟩
  | front f m =>
    simp only [exchangeStep, hopen, Bool.false_eq_true, if_false]
    exact frontStep_adds e hopen
  | back f m =>
    simp only [exchangeStep, hopen, Bool.false_eq_true, if_false]
    obtain ⟨h1, h2⟩ := backStep_adds (f := f) (m := m) e hopen
    refine ⟨h1, ?_⟩
    rw [h2]
    exact adds_none _

theorem exchangeStep_ended (i : Input) (hclosed : s.closed = true) :
    (exchangeStep e s i).2.closed = true ∧ (exchangeStep e s i).2.client = s.client ∧
      (exchangeStep e s i).2.upstream = s.upstream := by
  cases i <;> simp [exchangeStep, hclosed]

theorem exchange_relayed (service : Service) (client upstream : Sink) (inputs : List Input) :
    let final := (exchange e (.start service client upstream) inputs).2
    Relayed rejection.bytes (backs inputs) final.closed client.written final.client.written ∧
      Relayed [] (fronts inputs) final.closed upstream.written final.upstream.written := by
  induction inputs using List.reverseRecOn with
  | nil =>
    refine ⟨⟨0, [], le_rfl, ?_, fun _ => ⟨rfl, rfl⟩, .inl List.nil_prefix⟩,
      ⟨0, [], le_rfl, ?_, fun _ => ⟨rfl, rfl⟩, .inl List.nil_prefix⟩⟩ <;>
    simp [exchange, run, Session.start]
  | append_singleton inputs i ih =>
    obtain ⟨ih1, ih2⟩ := ih
    simp only [exchange_snoc, backs, fronts, filterMap_snoc]
    cases hc : (exchange e (.start service client upstream) inputs).2.closed with
    | false =>
      obtain ⟨h1, h2⟩ := exchangeStep_adds (e := e) i hc
      rw [hc] at ih1 ih2
      exact ⟨ih1.step h1, ih2.step h2⟩
    | true =>
      obtain ⟨h1, h2, h3⟩ := exchangeStep_ended (e := e) i hc
      rw [hc] at ih1 ih2
      rw [h1, h2, h3]
      exact ⟨ih1.later _, ih2.later _⟩

theorem exchange_ended (inputs : List Input) {k : ℕ} (hk : k ≤ inputs.length)
    (hclosed : (before e s inputs k).closed = true) :
    (exchange e s inputs).2.client = (before e s inputs k).client ∧
      (exchange e s inputs).2.upstream = (before e s inputs k).upstream := by
  have hkeep := run_monotone (exchangeStep e)
    (fun a b => a.closed = true → b.closed = true ∧ b.client = a.client ∧ b.upstream = a.upstream)
    (fun a ha => ⟨ha, rfl, rfl⟩) (fun a b c hab hbc ha => ?_)
    (fun a i ha => exchangeStep_ended i ha) s inputs k inputs.length hk hclosed
  · rw [List.take_length] at hkeep
    exact hkeep.2
  · obtain ⟨h1, h2, h3⟩ := hab ha
    obtain ⟨h4, h5, h6⟩ := hbc h1
    exact ⟨h4, h5.trans h2, h6.trans h3⟩

theorem decided_step {inputs : List Input} {k : ℕ} {f : Frame} {m : Moment} {d : Decision}
    (hi : inputs[k]? = some (.back f m)) (hd : (exchange e s inputs).1[k]? = some (some d)) :
    (before e s inputs k).closed = false ∧ ((before e s inputs k).decide e).1 = d ∧
      before e s inputs (k+1) = (commitStep e (before e s inputs k) f m).2 := by
  obtain ⟨hc, f', m', hi', hcommit⟩ := (decides_iff_commits inputs k).mp ⟨_, hd, rfl⟩
  rw [hi] at hi'
  cases hi'
  have hknown : ¬ f.kind ∉ backKinds := by
    rw [hcommit.1]
    decide +kernel
  have hstep : exchangeStep e (before e s inputs k) (.back f m) =
      commitStep e (before e s inputs k) f m := by
    simp only [exchangeStep, hc, Bool.false_eq_true, if_false, backStep_eq, hknown, hcommit, if_true]
  refine ⟨hc, ?_, ?_⟩
  · rw [outs_getElem? inputs hi, hstep, commitStep_decision] at hd
    exact Option.some.inj (Option.some.inj hd)
  · rw [before, exchange, run_take_succ _ _ _ _ _ hi]
    exact congrArg Prod.snd hstep

theorem applyFault_withheld {elapsed : Bool} {f : Fault} (h : f.action ≠ "delay" ∨ elapsed = false) :
    applyFault elapsed f ≠ some true := by
  by_cases hclose : f.action = "close_connection"
  · simp [applyFault, hclose]
  · simp only [applyFault, hclose, if_false]
    intro hsome
    obtain ⟨_, -, hboth⟩ := Option.map_eq_some_iff.mp hsome
    simp only [Bool.and_eq_true, decide_eq_true_eq] at hboth
    rcases h with h | h
    · exact h hboth.2
    · rw [h] at hboth
      cases hboth.1

theorem applyFault_delayed {f : Fault} (h : f.action = "delay") (hd : f.duration.isSome = true) :
    applyFault true f = some true := by
  obtain ⟨t, ht⟩ := Option.isSome_iff_exists.mp hd
  simp [applyFault, h, ht]

end Run

theorem Relayed.bytes {own : Bytes} {received : List Frame} {closed : Bool} {first written stream : Bytes}
    (h : Relayed own received closed first written) (hstream : received <+: frames stream) :
    ∃ sent t, written = first ++ sent ++ t ∧ sent <+: stream ∧ t <+: own := by
  have hall : received.flatMap Frame.bytes <+: stream :=
    (hstream.flatMap _).trans (frames_bytes stream)
  obtain ⟨n, t, hn, hw, -, ht⟩ := h
  rcases ht with ht | ⟨f, hf, ht⟩
  · refine ⟨_, t, hw, ?_, ht⟩
    exact ((List.take_prefix n received).flatMap _).trans hall
  · -- a frame that was written in part continues the stream
    refine ⟨(received.take n).flatMap Frame.bytes ++ t, [], ?_, ?_, List.nil_prefix⟩
    · rw [hw, List.append_nil, List.append_assoc]
    · have hnext : received.take (n+1) = received.take n ++ [f] := by
        rw [List.take_add_one, hf]
        rfl
      have hpart : (received.take n).flatMap Frame.bytes ++ t <+:
          (received.take (n+1)).flatMap Frame.bytes := by
        rw [hnext, List.flatMap_append, List.flatMap_singleton]
        exact (List.prefix_append_right_inj _).mpr ht
      exact hpart.trans (((List.take_prefix (n+1) received).flatMap _).trans hall)

structure RelayLaw (e : Endpoint) (s : Session) (inputs : List Input) : Prop where
  /-- The client receives the first frames of the upstream, then at most one rejection. -/
  client : Relayed rejection.bytes (backs inputs) (exchange e s inputs).2.closed s.client.written
    (exchange e s inputs).2.client.written
  upstream : Relayed [] (fronts inputs) (exchange e s inputs).2.closed s.upstream.written
    (exchange e s inputs).2.upstream.written
  /-- The same in the bytes of the streams from which the frames were read. -/
  client_bytes : ∀ stream, backs inputs <+: frames stream → ∃ sent t,
    (exchange e s inputs).2.client.written = s.client.written ++ sent ++ t ∧ sent <+: stream ∧
      t <+: rejection.bytes
  upstream_bytes : ∀ stream, fronts inputs <+: frames stream → ∃ sent,
    (exchange e s inputs).2.upstream.written = s.upstream.written ++ sent ∧ sent <+: stream
  /-- After the end nothing is written. -/
  ended : ∀ k ≤ inputs.length, (before e s inputs k).closed = true →
    (exchange e s inputs).2.client = (before e s inputs k).client ∧
      (exchange e s inputs).2.upstream = (before e s inputs k).upstream
  /-- A commit whose decision selects no fault, or a delay that elapses, is forwarded. -/
  forwarded : ∀ k f m d, inputs[k]? = some (.back f m) →
    (exchange e s inputs).1[k]? = some (some d) →
    (d.selected = false ∨
      d.fault.action = "delay" ∧ d.fault.duration.isSome = true ∧ m.elapsed = true) →
    (before e s inputs (k+1)).client = ((before e s inputs k).client.write f.bytes).2
  /-- Any other commit is withheld, and so is all that follows it. -/
  withheld : ∀ k f m d, inputs[k]? = some (.back f m) →
    (exchange e s inputs).1[k]? = some (some d) → d.selected = true →
    (d.fault.action ≠ "delay" ∨ m.elapsed = false) →
    (exchange e s inputs).2.client = (before e s inputs k).client

theorem relay_law (e : Endpoint) (service : Service) (client upstream : Sink)
    (inputs : List Input) : RelayLaw e (.start service client upstream) inputs where
  client := (exchange_relayed service client upstream inputs).1
  upstream := (exchange_relayed service client upstream inputs).2
  client_bytes := fun stream h => (exchange_relayed service client upstream inputs).1.bytes h
  upstream_bytes := by
    intro stream h
    obtain ⟨sent, t, hw, hsent, ht⟩ := (exchange_relayed service client upstream inputs).2.bytes h
    rw [List.prefix_nil.mp ht, List.append_nil] at hw
    exact ⟨sent, hw, hsent⟩
  ended := fun k hk => exchange_ended inputs hk
  forwarded := by
    intro k f m d hi hd hpass
    obtain ⟨hc, hdec, hafter⟩ := decided_step hi hd
    have hpasses : Decision.Passes ((before e (.start service client upstream) inputs k).decide e).1 m := by
      rw [hdec]
      intro hsel
      rcases hpass with hn | ⟨h1, h2, h3⟩
      · rw [hn] at hsel
        cases hsel
      · rw [h3]
        exact applyFault_delayed h1 h2
    obtain ⟨s', h1, -, -, h4⟩ := commitStep_passes (f := f) e hpasses
    rw [hafter, h4, ← h1]
    unfold Session.toClient
    split_ifs
    · rfl
    · simp [Session.close]
  withheld := by
    intro k f m d hi hd hsel hfault
    obtain ⟨hc, hdec, hafter⟩ := decided_step hi hd
    have hkeeps : ¬ Decision.Passes ((before e (.start service client upstream) inputs k).decide e).1 m := by
      rw [hdec]
      exact fun hh => applyFault_withheld hfault (hh hsel)
    obtain ⟨h1, h2, -⟩ := commitStep_withheld (f := f) e hkeeps
    have hk : k+1 ≤ inputs.length := (List.getElem?_eq_some_iff.mp hi).1
    rw [← hafter] at h1 h2
    exact (exchange_ended inputs hk h1).1.trans h2

end Faultline.PostgreSQL
