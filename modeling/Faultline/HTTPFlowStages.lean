import Faultline.HTTPFlowStep

/-! Each stage of the handler keeps the invariant of a flow, and so does every step of a read and
of the context. -/
namespace Faultline.HTTP

section Stages
variable {c : Call} {s : Flow}

theorem Fresh.sealed (h : Fresh s) : Sealed s := sealed_of_none h.unwrapped.1

theorem Armed.unwinding (h : Armed s) : Unwinding s := by
  have hleaving : Leaving s .after := h
  exact hleaving.unwinding

/-! Before the decision. -/

theorem start_inv (h : FlowInv s) (hstage : s.stage = .start) :
    FlowInv { s.record c .flowStarted with defers := [.finish], stage := .check } := by
  obtain ⟨hfresh, -⟩ := h.at hstage
  obtain ⟨decided, htypes, -⟩ := h.logged.types
  have hempty : s.events = [] := by simpa [Flow.types, hstage, FlowAt.isStart] using htypes
  have hselected : s.report.decision.selected = false := by
    by_contra hsel
    have hmem := h.logged.selected (by simpa using hsel)
    simp [hempty] at hmem
  have hevents : (s.record c .flowStarted).events = [event .flowStarted s.report c.proxyID] := by
    simp [Flow.record, hempty]
  have hsound : Sound { s with defers := [.finish], stage := .check } := h.sound.steady (steady_of_quiet rfl)
  refine ⟨⟨hfresh, rfl, by simp [hevents, event]⟩, ?_, { hsound with }⟩
  refine ⟨⟨false, ?_, fun hr => ?_⟩, fun hsel => ?_, ?_, ?_, ?_⟩
  · simp [hempty, event, Flow.types, FlowAt.isStart, FlowAt.isDone, Flow.record, Flow.recorded,
      hfresh.reached, hfresh.applied]
  · exact absurd hr (by simp [Flow.record, hfresh.reached])
  · exact absurd hsel (by simp [Flow.record, hselected])
  all_goals
    intro e he htype
    rw [hevents, List.mem_singleton] at he
    subst he
    cases htype

theorem refuse_inv (h : FlowInv s) (hr : Running s) (hfresh : Fresh s) (defers : List Deferred)
    (hdefers : defers = [.finish] ∨ defers = [.slot, .finish]) (outcome : String) :
    FlowInv (({ s with defers := defers } : Flow).refuse outcome) := by
  refine h.move hr rfl ⟨rfl, rfl⟩ ⟨?_, hfresh.recording⟩
  refine Or.inr (Or.inr ⟨hfresh.sealed, hfresh.reported.trans hfresh.applied.symm, ?_⟩)
  rcases hdefers with hd | hd
  · exact Or.inr (Or.inr (Or.inr hd))
  · exact Or.inr (Or.inr (Or.inl hd))

theorem check_inv (h : FlowInv s) (hstage : s.stage = .check) : FlowInv (checkStep c s) := by
  obtain ⟨hfresh, hdefers, htypes⟩ := h.at hstage
  have hr := running_at hstage ⟨rfl, rfl⟩
  unfold checkStep
  split_ifs
  · exact refuse_inv h hr hfresh s.defers (Or.inl hdefers) _
  · exact h.move hr rfl ⟨rfl, rfl⟩ ⟨hfresh, hdefers, htypes⟩

theorem slot_inv (h : FlowInv s) (hstage : s.stage = .slot) (free : Bool) :
    FlowInv (slotStep c s free) := by
  obtain ⟨hfresh, hdefers, htypes⟩ := h.at hstage
  have hr := running_at hstage ⟨rfl, rfl⟩
  unfold slotStep
  split_ifs
  · exact refuse_inv h hr hfresh s.defers (Or.inl hdefers) _
  · exact refuse_inv h hr hfresh _ (Or.inr (by rw [hdefers])) _
  · refine h.move hr rfl ⟨rfl, rfl⟩ ⟨hfresh, ?_, htypes⟩
    simp [hdefers, base]

/-! The decision. -/

theorem decided_http (c : Call) (h : (decisionOf c.decision).selected = true) :
    HTTPFault (decisionOf c.decision).fault := by
  cases hd : c.decision with
  | error e =>
    rw [hd] at h
    exact absurd h Bool.false_ne_true
  | ok d =>
    rw [hd] at h
    exact (c.decided d hd h).http

theorem decided_logged {s' : Flow} (h : FlowInv s) (hstage : s.stage = .decide) (hr' : Running s')
    (e : Event) (hevents : s'.events = s.events ++ [e]) (htype : e.type = .decision)
    (hselected : e.selected = s'.report.decision.selected) (hreached : s'.report.reached = false)
    (happlied : s'.applied = false) : Logged s' := by
  obtain ⟨hfresh, -, hstarted⟩ := h.at hstage
  have hr := running_at hstage ⟨rfl, rfl⟩
  apply h.logged.add hr e hevents
  · intro hf
    rw [htype] at hf
    cases hf
  · intro decided ht _
    refine ⟨true, ?_, fun _ => rfl⟩
    rw [← ht, hstarted, s'.types_running hr', htype]
    simp [hreached, Flow.recorded, happlied]
  · exact fun _ => Or.inr htype
  · intro d hd htype'
    have hmem := List.mem_map_of_mem (f := Event.type) hd
    rw [hstarted, htype'] at hmem
    simp at hmem
  · exact fun _ => hselected
  · intro hf
    rw [htype] at hf
    cases hf

theorem decide_inv (h : FlowInv s) (hstage : s.stage = .decide) : FlowInv (decideStep c s) := by
  obtain ⟨hfresh, hdefers, -⟩ := h.at hstage
  have hsound : Sound ({ s with report := { s.report with decision := decisionOf c.decision } } : Flow) := by
    refine ⟨decided_http c, fun hj => ?_, h.sound.reader, h.sound.pending, h.sound.reading, h.sound.event⟩
    obtain ⟨hbody, hresponse, -⟩ := hfresh.unwrapped
    simp [hfresh.applied, hbody, hresponse] at hj
  unfold decideStep
  simp only
  split
  · refine ⟨⟨?_, hfresh.recording⟩, ?_, { hsound with }⟩
    · exact Or.inr (Or.inl ⟨hfresh.sealed, Or.inr hdefers⟩)
    · exact decided_logged h hstage ⟨rfl, rfl⟩ _ rfl rfl rfl hfresh.reached hfresh.applied
  · refine ⟨⟨hfresh, hdefers⟩, ?_, { hsound with }⟩
    exact decided_logged h hstage ⟨rfl, rfl⟩ _ rfl rfl rfl hfresh.reached hfresh.applied

/-! The fault at its phase. -/

theorem reach_logged (h : FlowInv s) (hr : Running s) (hsel : s.report.decision.selected = true)
    (hreached : s.report.reached = false) : Logged (s.reach c) := by
  have happlied : s.applied = false := by
    by_contra ha
    have hj := h.sound.justified (Or.inl (by simpa using ha))
    rw [hreached] at hj
    exact absurd hj.1 Bool.false_ne_true
  apply h.logged.add hr (event .faultReached { s.report with reached := true } c.proxyID) rfl
  · exact nofun
  · intro decided ht _
    -- a selected fault has been decided
    have hdecided : decided = true := by
      have hmem := h.logged.selected hsel
      rw [ht, s.types_running hr] at hmem
      simpa [hreached, Flow.recorded, happlied] using hmem
    refine ⟨true, ?_, fun _ => rfl⟩
    rw [s.types_running hr, (s.reach c).types_running hr, hdecided]
    simp [hreached, Flow.recorded, happlied, Flow.reach, Flow.record, event]
  · exact Or.inl
  · exact h.logged.decision
  · exact nofun
  · exact nofun

theorem reach_sound (h : Sound s) (hsel : s.report.decision.selected = true) : Sound (s.reach c) :=
  ⟨h.decision, fun _ => ⟨rfl, hsel⟩, h.reader, h.pending, h.reading, fun _ => ⟨rfl, hsel, rfl, rfl⟩⟩

def Passing (s : Flow) : FlowPhase → Prop
  | .before => Met s .before ∧ Ahead s ∧ Unwrapped s ∧ s.defers = base
  | .after => Met s .after ∧ Armed s ∧ s.responded = true

theorem passed_inv (hl : Logged s) (hs : Sound s) (hr : Running s) (hrec : s.recording = false)
    (phase : FlowPhase) (hpass : Passing s phase) : FlowInv (s.passed phase) := by
  cases phase with
  | before =>
    obtain ⟨hmet, hahead, hunwrapped, hdefers⟩ := hpass
    exact .of_quiet hl hs hr rfl ⟨rfl, rfl⟩ ⟨hmet, hahead, hunwrapped, hrec, hdefers⟩
  | after =>
    obtain ⟨hmet, harmed, hresponded⟩ := hpass
    exact .of_quiet hl hs hr rfl ⟨rfl, rfl⟩ ⟨hmet, harmed, hrec, hresponded⟩

def Engaged (s : Flow) : FlowPhase → Prop
  | .before => Acting s .before ∧ Unwrapped s ∧ s.defers = base
  | .after => Acting s .after ∧ Armed s ∧ s.responded = true

theorem Engaged.acting {phase : FlowPhase} (h : Engaged s phase) : Acting s phase := by
  cases phase <;> exact h.1

theorem Engaged.leaving {phase : FlowPhase} (h : Engaged s phase) : Leaving s phase := by
  cases phase with
  | before => exact h.2
  | after => exact h.2.1

theorem Engaged.passing {phase : FlowPhase} (h : Engaged s phase) : Passing s phase := by
  cases phase with
  | before =>
    obtain ⟨⟨hreached, -, hphase⟩, hunwrapped, hdefers⟩ := h
    refine ⟨fun _ _ => hreached, fun hafter => ?_, hunwrapped, hdefers⟩
    rw [hphase] at hafter
    exact absurd hafter (by decide)
  | after =>
    obtain ⟨⟨hreached, -, -⟩, harmed, hresponded⟩ := h
    exact ⟨fun _ _ => hreached, harmed, hresponded⟩

theorem executing_place {phase : FlowPhase} : PlaceAt s (.executing phase) ↔ Engaged s phase := by
  cases phase <;> exact Iff.rfl

theorem executed_place {phase : FlowPhase} {err : Option FlowError} :
    PlaceAt s (.executed phase err) ↔ Engaged s phase := by
  cases phase <;> exact Iff.rfl

theorem apply_inv (h : FlowInv s) (phase : FlowPhase) (hstage : s.stage = .apply phase) :
    FlowInv (applyStep c s phase) := by
  have hr := running_at hstage ⟨rfl, rfl⟩
  have hplace := h.at hstage
  have hrec : s.recording = false := by
    cases phase with
    | before => exact hplace.1.recording
    | after => exact hplace.2.2.1
  unfold applyStep
  by_cases hact : s.report.decision.selected = true ∧ s.report.decision.fault.phase = phase.name
  · rw [if_neg (by simp [hact])]
    have hreached : s.report.reached = false := by
      cases phase with
      | before => exact hplace.1.reached
      | after => exact hplace.1 hact.2
    have hl := reach_logged (c := c) h hr hact.1 hreached
    have hs := reach_sound (c := c) h.sound hact.1
    have hengaged : Engaged (s.reach c) phase := by
      cases phase with
      | before => exact ⟨⟨rfl, hact⟩, hplace.1.unwrapped, hplace.2⟩
      | after => exact ⟨⟨rfl, hact⟩, hplace.2.1, hplace.2.2.2⟩
    simp only
    split_ifs
    · exact passed_inv hl hs hr hrec phase hengaged.passing
    · exact failed_inv c _ phase _ hl hs hr hrec hengaged.leaving
    · refine .of_quiet hl hs hr rfl ⟨rfl, rfl⟩ ?_
      cases phase <;> exact hengaged
  · rw [if_pos (by
      by_cases hsel : s.report.decision.selected = true
      · simp [show s.report.decision.fault.phase ≠ phase.name from fun hp => hact ⟨hsel, hp⟩]
      · simp [hsel])]
    apply passed_inv h.logged h.sound hr hrec
    cases phase with
    | before =>
      exact ⟨fun hsel hp => absurd ⟨hsel, hp⟩ hact, fun _ => hplace.1.reached, hplace.1.unwrapped,
        hplace.2⟩
    | after => exact ⟨fun hsel hp => absurd ⟨hsel, hp⟩ hact, hplace.2.1, hplace.2.2.2⟩

theorem onApplied_inv (hl : Logged s) (hs : Sound s) (hr : Running s)
    (hjust : s.report.reached = true ∧ s.report.decision.selected = true) :
    Logged s.onApplied ∧ Sound s.onApplied := by
  unfold Flow.onApplied
  by_cases happlied : s.applied = true
  · rw [if_pos happlied]
    exact ⟨hl, hs⟩
  · rw [if_neg happlied]
    have hreader : s.reader.isRecording = false := by
      by_contra hreading
      exact happlied (hs.reading (by simpa using hreading))
    refine ⟨hl.keep hr hr rfl rfl rfl ?_, hs.decision, fun _ => hjust, hs.reader,
      fun _ => ⟨rfl, hreader⟩, fun _ => rfl, hs.event⟩
    simp [Flow.recorded, happlied]

theorem closeConnection_eq (c : Call) (s : Flow) : ∃ terminal disconnected,
    s.closeConnection c = { s with terminal := terminal, disconnected := disconnected } := by
  unfold Flow.closeConnection
  split_ifs
  · exact ⟨_, _, rfl⟩
  · exact ⟨_, _, rfl⟩

theorem call_inv (h : FlowInv s) (phase : FlowPhase) (hstage : s.stage = .executing phase)
    (call : ExecutorCall) : FlowInv (executorCall c s call) := by
  have hr := running_at hstage ⟨rfl, rfl⟩
  have hengaged := executing_place.mp (h.at hstage)
  have hsteady (terminal disconnected cancelled : Bool) : FlowInv { s with
      terminal := terminal, disconnected := disconnected, cancelled := cancelled } := by
    refine h.move hr rfl hr ?_
    show PlaceAt _ s.stage
    rw [hstage]
    cases phase <;> exact hengaged
  have hclose : FlowInv (s.closeConnection c) := by
    obtain ⟨terminal, disconnected, heq⟩ := closeConnection_eq c s
    rw [heq]
    exact hsteady terminal disconnected s.cancelled
  cases call with
  | applied =>
    obtain ⟨hreached, hsel, -⟩ := hengaged.acting
    obtain ⟨hl, hs⟩ := onApplied_inv h.logged h.sound hr ⟨hreached, hsel⟩
    refine ⟨?_, hl, hs⟩
    show Place s.onApplied
    unfold Flow.onApplied
    split_ifs
    · exact h.place
    · show PlaceAt _ s.stage
      rw [hstage]
      cases phase <;> exact hengaged
  | cancelUpstream => exact hsteady s.terminal s.disconnected true
  | respond => exact hsteady true s.disconnected s.cancelled
  | closeConnection => exact hclose
  | endStream =>
    show FlowInv (if c.request.protoMajor = 2 then _ else _)
    split_ifs
    · exact hsteady true true s.cancelled
    · exact hclose

theorem returned_inv (h : FlowInv s) (phase : FlowPhase) (hstage : s.stage = .executing phase)
    (applied : Bool) (err : Option FlowError) :
    FlowInv (if applied then ({ s with stage := .executed phase err } : Flow).onApplied
      else { s with stage := .executed phase err }) := by
  have hr := running_at hstage ⟨rfl, rfl⟩
  have hengaged := executing_place.mp (h.at hstage)
  have hmoved : FlowInv { s with stage := .executed phase err } := by
    refine h.move hr rfl ⟨rfl, rfl⟩ ?_
    cases phase <;> exact hengaged
  split_ifs
  · obtain ⟨hreached, hsel, -⟩ := hengaged.acting
    obtain ⟨hl, hs⟩ := onApplied_inv hmoved.logged hmoved.sound ⟨rfl, rfl⟩ ⟨hreached, hsel⟩
    refine ⟨?_, hl, hs⟩
    unfold Flow.onApplied
    split_ifs
    · exact hmoved.place
    · cases phase <;> exact hengaged
  · exact hmoved

theorem panic_inv (h : FlowInv s) (hr : Running s) (hrec : s.recording = false)
    (hunwind : Unwinding s) : FlowInv s.panic :=
  h.move hr rfl ⟨rfl, rfl⟩ ⟨hunwind, hrec⟩

theorem executed_inv (h : FlowInv s) (hrec : s.recording = false) (phase : FlowPhase)
    (err : Option FlowError) (hstage : s.stage = .executed phase err) :
    FlowInv (executedStep c s phase err) := by
  have hr := running_at hstage ⟨rfl, rfl⟩
  have hengaged := executed_place.mp (h.at hstage)
  cases err with
  | some e =>
    have hsteady : Steady s { s with report := { s.report with outcome := "executor_error", err := some e } } :=
      steady_of_quiet rfl
    apply failed_inv c _ phase _ (h.logged.steady hsteady hr hr) (h.sound.steady hsteady) hr hrec
    cases phase <;> exact hengaged.leaving
  | none =>
    show FlowInv (if s.terminal = true then _ else _)
    split_ifs
    · exact failed_inv c s phase none h.logged h.sound hr hrec hengaged.leaving
    · exact passed_inv h.logged h.sound hr hrec phase hengaged.passing

/-! The bodies. -/

theorem onBody_phase {f : Fault} (h : HTTPFault f) (hbody : f.onBody = true) :
    (f.direction = "request" → f.phase = FlowPhase.before.name) ∧
      (f.direction = "response" → f.phase = FlowPhase.after.name) := by
  have hacts := h.phase
  unfold Fault.actsAt at hacts
  rw [if_pos hbody] at hacts
  rcases hacts with ⟨hp, hd⟩ | ⟨hp, hd⟩
  · refine ⟨fun _ => hp, fun hd' => ?_⟩
    rw [hd] at hd'
    exact absurd hd' (by decide)
  · refine ⟨fun hd' => ?_, fun _ => hp⟩
    rw [hd] at hd'
    exact absurd hd' (by decide)

theorem wrap_inv (h : FlowInv s) (hstage : s.stage = .wrap) : FlowInv (wrapStep s) := by
  have hr := running_at hstage ⟨rfl, rfl⟩
  obtain ⟨hmet, hahead, ⟨hbody, hresponse, hresponded⟩, hrec, hdefers⟩ := h.at hstage
  unfold wrapStep
  simp only
  split_ifs with hwrap
  · obtain ⟨hsel, hon, hdirection⟩ := hwrap
    have hreached := hmet hsel ((onBody_phase (h.sound.decision hsel) hon).1 hdirection)
    have hidle := h.sound.reader hbody
    refine ⟨⟨Or.inl ⟨rfl, by simp [hdefers]⟩, fun _ => hahead⟩, ?_, ?_⟩
    · exact h.logged.keep hr ⟨rfl, rfl⟩ rfl rfl rfl rfl
    · exact ⟨h.sound.decision, fun _ => ⟨hreached, hsel⟩, nofun, h.sound.pending,
        h.sound.reading, h.sound.event⟩
  · refine h.move hr rfl ⟨rfl, rfl⟩ ⟨?_, fun _ => hahead⟩
    exact Or.inr ⟨hbody, by simp [hdefers]⟩

theorem wrapResponse_inv (h : FlowInv s) (hstage : s.stage = .wrapResponse) :
    FlowInv (wrapResponseStep c s) := by
  have hr := running_at hstage ⟨rfl, rfl⟩
  obtain ⟨hmet, harmed, hrec, hresponded⟩ := h.at hstage
  have hahead : s.responded = false → Ahead s := by
    intro hf
    rw [hresponded] at hf
    cases hf
  unfold wrapResponseStep
  simp only
  split_ifs with hwrap
  · obtain ⟨hsel, hon, hdirection, -⟩ := hwrap
    have hreached := hmet hsel ((onBody_phase (h.sound.decision hsel) hon).2 hdirection)
    refine ⟨⟨harmed, hahead⟩, h.logged.keep hr ⟨rfl, rfl⟩ rfl rfl rfl rfl, ?_⟩
    exact ⟨h.sound.decision, fun _ => ⟨hreached, hsel⟩, h.sound.reader, h.sound.pending,
      h.sound.reading, h.sound.event⟩
  · exact h.move hr rfl ⟨rfl, rfl⟩ ⟨harmed, hahead⟩

theorem copy_inv (h : FlowInv s) (hrec : s.recording = false) (hstage : s.stage = .proxying)
    (length : ℕ) (a : SourceAnswer) : FlowInv (copyStep s length a) := by
  have hr := running_at hstage ⟨rfl, rfl⟩
  obtain ⟨harmed, hahead⟩ := h.at hstage
  unfold copyStep
  split
  · exact h
  · next b hb =>
    split
    · exact panic_inv h hr hrec harmed.unwinding
    · next r b' hread =>
      have hjust := h.sound.justified (Or.inr (Or.inr (by simp [hb])))
      have hmoved : FlowInv { s with response := some b' } := by
        refine ⟨?_, h.logged.keep hr hr rfl rfl rfl rfl, h.sound.decision, fun _ => hjust,
          h.sound.reader, h.sound.pending, h.sound.reading, h.sound.event⟩
        show PlaceAt _ s.stage
        rw [hstage]
        exact ⟨harmed, hahead⟩
      split_ifs
      · obtain ⟨hl, hs⟩ := onApplied_inv hmoved.logged hmoved.sound hr hjust
        refine ⟨?_, hl, hs⟩
        unfold Flow.onApplied
        split_ifs
        · exact hmoved.place
        · show PlaceAt _ s.stage
          rw [hstage]
          exact ⟨harmed, hahead⟩
      · exact hmoved

theorem proxy_inv (h : FlowInv s) (hrec : s.recording = false) (hstage : s.stage = .proxying)
    (i : ProxyInput) : FlowInv (proxyStep c s i) := by
  have hr := running_at hstage ⟨rfl, rfl⟩
  obtain ⟨harmed, hahead⟩ := h.at hstage
  cases i with
  | response status hasBody =>
    unfold proxyStep
    simp only
    split_ifs with hresponded
    · exact h
    · have hsteady : Steady s { s with
          hasBody := hasBody, report := { s.report with upstreamStatus := status } } :=
        (steady_of_quiet rfl)
      exact failed_inv c _ .after _ (h.logged.steady hsteady hr hr) (h.sound.steady hsteady) hr hrec harmed
    · exact h.move hr rfl ⟨rfl, rfl⟩
        ⟨hahead (by simpa using hresponded), harmed, hrec, rfl⟩
  | copy length a => exact copy_inv h hrec hstage length a
  | fails e => exact failed_inv c s .after _ h.logged h.sound hr hrec harmed
  | served =>
    exact h.move hr rfl ⟨rfl, rfl⟩ ⟨harmed, hrec⟩
  | panics => exact panic_inv h hr hrec harmed.unwinding

theorem served_inv (h : FlowInv s) (hstage : s.stage = .served) (status : String) :
    FlowInv (servedStep c s status) := by
  have hr := running_at hstage ⟨rfl, rfl⟩
  obtain ⟨harmed, hrec⟩ := h.at hstage
  have hunwind : Unwinding s := harmed.unwinding
  unfold servedStep
  split_ifs
  all_goals
    exact h.move hr rfl ⟨rfl, rfl⟩ ⟨hunwind, hrec⟩

/-! The deferred functions. -/

theorem Sealed.cancel {s' : Flow} (h : Sealed s) (hbody : s'.body = s.body) (hreader : s'.reader = s.reader)
    (hcancelled : s'.cancelled = true) : Sealed s' := by
  unfold Sealed at h ⊢
  rw [hbody, hreader]
  exact fun hb => ⟨hcancelled, (h hb).2⟩

theorem finish_inv (h : FlowInv s) (hstage : s.stage = .unwinding) (hsealed : Sealed s)
    (hreported : s.report.applied = s.applied) (rest : List Deferred) (now : ℕ) (notReached : Bool) :
    FlowInv (({ s with
      defers := rest
      stage := .done
      report := { s.report with finishedAt := now, notReached := notReached } } : Flow).record c
        .flowFinished) := by
  have hr := running_at hstage ⟨rfl, rfl⟩
  have hrec : s.recording = false := (h.at hstage).2
  have hsound := h.sound
  refine ⟨⟨hsealed, hreported, hrec⟩, ?_, ⟨hsound.decision, hsound.justified, hsound.reader,
    hsound.pending, hsound.reading, hsound.event⟩⟩
  apply h.logged.add hr
    (event .flowFinished { s.report with finishedAt := now, notReached := notReached } c.proxyID) rfl
  · exact fun _ => hreported
  · intro decided _ hdecided
    refine ⟨decided, ?_, hdecided⟩
    rw [s.types_running hr]
    simp [Flow.types, FlowAt.isStart, FlowAt.isDone, Flow.record, Flow.recorded, event]
  · exact Or.inl
  · exact h.logged.decision
  · intro htype
    cases htype
  · intro htype
    cases htype

theorem unwind_inv (h : FlowInv s) (hstage : s.stage = .unwinding) (now : ℕ) :
    FlowInv (unwindStep c s now) := by
  have hr := running_at hstage ⟨rfl, rfl⟩
  obtain ⟨hunwind, hrec⟩ := h.at hstage
  -- most of the deferred functions leave the handler where it is
  have hstay (s' : Flow) (hquiet : s'.quiet = s.quiet) (hsame : s'.stage = s.stage) (hnext : Unwinding s') :
      FlowInv s' := by
    have hat := hsame.trans hstage
    apply h.move hr hquiet (running_at hat ⟨rfl, rfl⟩)
    unfold Place
    rw [hat]
    exact ⟨hnext, (steady_of_quiet hquiet).recording.trans hrec⟩
  unfold unwindStep
  rcases hunwind with ⟨hbody, hd | hd⟩ | ⟨hsealed, hd | hd⟩ | ⟨hsealed, hreported, hd | hd | hd | hd⟩
  all_goals rw [hd]
  · -- the recovery, with the body still to close
    simp only
    split_ifs <;> exact hstay _ rfl rfl (Or.inl ⟨hbody, Or.inr rfl⟩)
  · exact h.move hr rfl ⟨rfl, rfl⟩ ⟨rfl, rfl, hrec⟩
  · simp only
    split_ifs <;> exact hstay _ rfl rfl (Or.inr (Or.inl ⟨hsealed, Or.inr rfl⟩))
  · exact h.move hr rfl ⟨rfl, rfl⟩ ⟨hsealed, rfl, hrec⟩
  · exact hstay _ rfl rfl (Or.inr (Or.inr ⟨hsealed, hreported, Or.inr (Or.inl rfl)⟩))
  · exact hstay _ rfl rfl (Or.inr (Or.inr ⟨hsealed.cancel rfl rfl rfl, hreported, Or.inr (Or.inr (Or.inl rfl))⟩))
  · exact hstay _ rfl rfl (Or.inr (Or.inr ⟨hsealed, hreported, Or.inr (Or.inr (Or.inr rfl))⟩))
  · exact finish_inv h hstage hsealed hreported [] now _

theorem closeSource_inv (h : FlowInv s) (hstage : s.stage = .closeSource) :
    FlowInv { s with bodyClosed := true, stage := .joinBody } :=
  h.move (running_at hstage ⟨rfl, rfl⟩) rfl ⟨rfl, rfl⟩
    (h.at hstage)

theorem joinBody_inv (h : FlowInv s) (hstage : s.stage = .joinBody) (hidle : s.reader = .idle) :
    FlowInv { s with stage := .loadApplied } := by
  obtain ⟨hcancelled, hdefers, hrec⟩ := h.at hstage
  have hsealed : Sealed s := fun _ => ⟨hcancelled, by rw [hidle]; rfl⟩
  exact h.move (running_at hstage ⟨rfl, rfl⟩) rfl ⟨rfl, rfl⟩
    ⟨hsealed, hdefers, hrec⟩

theorem loadApplied_inv (h : FlowInv s) (hstage : s.stage = .loadApplied) :
    FlowInv (({ s with report := { s.report with applied := s.applied } } : Flow).return) := by
  obtain ⟨hsealed, hdefers, hrec⟩ := h.at hstage
  exact h.move (running_at hstage ⟨rfl, rfl⟩) rfl ⟨rfl, rfl⟩
    ⟨Or.inr (Or.inl ⟨hsealed, Or.inr hdefers⟩), hrec⟩

theorem cancelFlow_inv (h : FlowInv s) (hstage : s.stage = .cancelFlow) :
    FlowInv { s with cancelled := true, stage := .loadReport } := by
  obtain ⟨hsealed, hdefers, hrec⟩ := h.at hstage
  exact h.move (running_at hstage ⟨rfl, rfl⟩) rfl ⟨rfl, rfl⟩
    ⟨hsealed.cancel rfl rfl rfl, hdefers, hrec⟩

theorem loadReport_inv (h : FlowInv s) (hstage : s.stage = .loadReport) :
    FlowInv { s with report := { s.report with applied := s.applied }, stage := .joinDiscard } := by
  obtain ⟨hsealed, hdefers, hrec⟩ := h.at hstage
  exact h.move (running_at hstage ⟨rfl, rfl⟩) rfl ⟨rfl, rfl⟩
    ⟨hsealed, rfl, hdefers, hrec⟩

theorem joinDiscard_inv (h : FlowInv s) (hstage : s.stage = .joinDiscard) :
    FlowInv { s with stage := .settle } :=
  h.move (running_at hstage ⟨rfl, rfl⟩) rfl ⟨rfl, rfl⟩
    (h.at hstage)

theorem settle_eq (s : Flow) : ∃ outcome err kind, settleStep s =
    ({ s with report := { s.report with outcome := outcome, err := err, errorKind := kind } } :
      Flow).return := by
  unfold settleStep
  simp only
  cases s.context with
  | none => exact ⟨_, _, _, rfl⟩
  | some e =>
    simp only
    by_cases hdisconnected : (!s.disconnected || s.report.err.isSome) = true
    · rw [if_pos hdisconnected]
      exact ⟨_, _, _, rfl⟩
    · rw [if_neg hdisconnected]
      exact ⟨_, _, _, rfl⟩

theorem settle_inv (h : FlowInv s) (hstage : s.stage = .settle) : FlowInv (settleStep s) := by
  obtain ⟨hsealed, hreported, hdefers, hrec⟩ := h.at hstage
  obtain ⟨outcome, err, kind, heq⟩ := settle_eq s
  rw [heq]
  exact h.move (running_at hstage ⟨rfl, rfl⟩) rfl ⟨rfl, rfl⟩
    ⟨Or.inr (Or.inr ⟨hsealed, hreported, Or.inl hdefers⟩), hrec⟩

/-! The applied event. -/

theorem Logged.record_applied {s' : Flow} (h : Logged s) (hs : Sound s) (hr : Running s)
    (hr' : Running s') (happlied : s.applied = true) (hevents : s'.events = s.events ++ [s.appliedEvent])
    (hreport : s'.report = s.report) (hbefore : s.recorded = false) (hafter : s'.recorded = true) :
    Logged s' := by
  obtain ⟨hreached, hselected⟩ := hs.justified (Or.inl happlied)
  obtain ⟨htype, hevent⟩ := hs.event hreached
  apply h.add hr s.appliedEvent hevents
  · intro hf
    rw [htype] at hf
    cases hf
  · intro decided _ hdecided
    refine ⟨decided, ?_, by rw [hreport]; exact hdecided⟩
    rw [s.types_running hr, s'.types_running hr', hreport, hbefore, hafter, htype]
    simp
  · rw [hreport]
    exact Or.inl
  · rw [hreport]
    exact h.decision
  · intro hf
    rw [htype] at hf
    cases hf
  · exact fun _ => hevent

theorem recording_inv (h : FlowInv s) (hrec : s.recording = true) :
    FlowInv { s with recording := false, events := s.events ++ [s.appliedEvent] } := by
  obtain ⟨happlied, hreader⟩ := h.sound.pending hrec
  have hplace : Place { s with recording := false, events := s.events ++ [s.appliedEvent] } ∧
      Running s := by
    have hold : PlaceAt s s.stage := h.place
    unfold Running
    show PlaceAt _ s.stage ∧ _
    generalize s.stage = stage at hold ⊢
    -- the handler records where it has called `onApplied`
    cases stage with
    | executing phase => exact ⟨by cases phase <;> exact hold, rfl, rfl⟩
    | executed phase err => exact ⟨by cases phase <;> exact hold, rfl, rfl⟩
    | proxying => exact ⟨hold, rfl, rfl⟩
    | apply phase => cases phase <;> simp [PlaceAt, Fresh, hrec] at hold
    | _ => simp [PlaceAt, Fresh, hrec] at hold
  refine ⟨hplace.1, ?_, h.sound.decision, h.sound.justified, h.sound.reader, ?_, h.sound.reading,
    h.sound.event⟩
  · refine h.logged.record_applied h.sound hplace.2 hplace.2 happlied rfl rfl ?_ ?_
    · simp [Flow.recorded, hrec]
    · simp [Flow.recorded, happlied, hreader]
  · exact nofun

theorem handlerStep_inv (h : FlowInv s) (i : HandlerInput) : FlowInv (handlerStep c s i) := by
  unfold handlerStep
  by_cases hrec : s.recording = true
  · rw [if_pos hrec]
    exact recording_inv h hrec
  · rw [if_neg hrec]
    have hrec' : s.recording = false := by simpa using hrec
    split
    · next hstage => exact start_inv h hstage
    · next hstage => exact check_inv h hstage
    · next hstage => exact slot_inv h hstage _
    · next hstage => exact decide_inv h hstage
    · next hstage => exact apply_inv h _ hstage
    · next hstage => exact call_inv h _ hstage _
    · next hstage => exact returned_inv h _ hstage _ _
    · next hstage =>
      exact panic_inv h (running_at hstage ⟨rfl, rfl⟩) hrec'
        (executing_place.mp (h.at hstage)).leaving.unwinding
    · next hstage => exact executed_inv h hrec' _ _ hstage
    · next hstage => exact wrap_inv h hstage
    · next hstage => exact wrapResponse_inv h hstage
    · next hstage => exact proxy_inv h hrec' hstage _
    · next hstage => exact served_inv h hstage _
    · next hstage => exact unwind_inv h hstage _
    · next hstage => exact closeSource_inv h hstage
    · next hstage =>
      split
      · next hidle => exact joinBody_inv h hstage hidle
      · exact h
    · next hstage => exact loadApplied_inv h hstage
    · next hstage => exact cancelFlow_inv h hstage
    · next hstage => exact loadReport_inv h hstage
    · next hstage =>
      split_ifs
      · exact h
      · exact joinDiscard_inv h hstage
    · next hstage => exact settle_inv h hstage
    · exact h

/-! The reads and the context. -/

theorem Logged.same {s' : Flow} (h : Logged s) (hstage : s'.stage = s.stage)
    (hevents : s'.events = s.events) (hreport : s'.report = s.report) (happlied : s'.applied = s.applied)
    (hrecorded : s'.recorded = s.recorded) : Logged s' := by
  obtain ⟨htypes, hselected, hdecision, happlied', hfinished⟩ := h
  refine ⟨?_, ?_, ?_, ?_, ?_⟩
  · unfold Flow.types at htypes ⊢
    rw [hevents, hreport, hstage, hrecorded]
    exact htypes
  · rw [hevents, hreport]
    exact hselected
  · rw [hevents, hreport]
    exact hdecision
  · rw [hevents]
    exact happlied'
  · rw [hevents, happlied]
    exact hfinished

/-- A read that has passed the check of the context: the flow is neither sealed nor at its
ends. -/
theorem running_of_loud (h : FlowInv s) (hbody : s.body.isSome = true) (hloud : s.reader.quiet = false) :
    ¬ Sealed s ∧ Running s := by
  have hnot : ¬ Sealed s := by
    intro hsealed
    have hq := (hsealed hbody).2
    rw [hloud] at hq
    cases hq
  refine ⟨hnot, ?_⟩
  have hplace : PlaceAt s s.stage := h.place
  unfold Running
  generalize s.stage = stage at hplace ⊢
  cases stage with
  | start =>
    rw [hplace.1.unwrapped.1] at hbody
    cases hbody
  | done => exact absurd hplace.1 hnot
  | _ => exact ⟨rfl, rfl⟩

theorem reader_quiet_inv (h : FlowInv s) (b : Body) (hb : s.body = some b) (next : Body) (r : ReaderAt)
    (hloud : s.reader.quiet = false ∨ (s.cancelled = true → r.quiet = true))
    (hr : s.reader.isRecording = false) (hr' : r.isRecording = false) :
    FlowInv { s with body := some next, reader := r } := by
  have hsome : s.body.isSome = true := by simp [hb]
  have hcontrol : SameControl s { s with body := some next, reader := r } :=
    ⟨rfl, rfl, hsome.symm, rfl, rfl, rfl, rfl⟩
  refine ⟨?_, ?_, h.sound.decision, fun hj => ?_, nofun, fun hrec => ?_, fun hrec => ?_,
    h.sound.event⟩
  · refine h.place.frame hcontrol (fun _ => rfl) id ?_
    intro hsealed
    rcases hloud with hloud | hquiet
    · exact absurd hsealed (running_of_loud h hsome hloud).1
    · exact ⟨fun _ => ⟨(hsealed hsome).1, hquiet (hsealed hsome).1⟩, rfl⟩
  · refine h.logged.same rfl rfl rfl rfl ?_
    simp [Flow.recorded, hr, hr']
  · exact h.sound.justified (Or.inr (Or.inl hsome))
  · exact ⟨(h.sound.pending hrec).1, hr'⟩
  · rw [hr'] at hrec
    cases hrec

theorem readerStep_inv (h : FlowInv s) (length : ℕ) (a : SourceAnswer) :
    FlowInv (readerStep s length a) := by
  unfold readerStep
  split
  · exact h
  · next b hb =>
    have hsome : s.body.isSome = true := by simp [hb]
    have hsame (r : ReaderAt) : ({ s with reader := r } : Flow) = { s with body := some b, reader := r } := by
      rw [← hb]
    have hjust := h.sound.justified (Or.inr (Or.inl hsome))
    cases hreader : s.reader with
    | idle =>
      simp only
      rw [hsame]
      exact reader_quiet_inv h b hb b .entered (Or.inr fun _ => rfl) (by rw [hreader]; rfl) rfl
    | entered =>
      simp only
      rw [hsame]
      apply reader_quiet_inv h b hb b _ (Or.inr fun hc => ?_) (by rw [hreader]; rfl)
      · split_ifs <;> rfl
      · rw [if_pos hc]
        rfl
    | source closed =>
      have hloud : s.reader.quiet = false := by rw [hreader]; rfl
      have hr : s.reader.isRecording = false := by rw [hreader]; rfl
      simp only
      split
      · rw [hsame]
        exact reader_quiet_inv h b hb b .idle (Or.inl hloud) hr rfl
      · split_ifs
        · rw [hsame]
          exact reader_quiet_inv h b hb b _ (Or.inl hloud) hr rfl
        · exact reader_quiet_inv h b hb _ .idle (Or.inl hloud) hr rfl
    | applying next =>
      have hloud : s.reader.quiet = false := by rw [hreader]; rfl
      have hr : s.reader.isRecording = false := by rw [hreader]; rfl
      obtain ⟨hnot, hrunning⟩ := running_of_loud h hsome hloud
      simp only
      by_cases happlied : s.applied = true
      · rw [if_pos happlied, hsame]
        exact reader_quiet_inv h b hb b _ (Or.inl hloud) hr rfl
      · rw [if_neg happlied]
        have hrec : s.recording = false := by
          by_contra hrec
          exact happlied (h.sound.pending (by simpa using hrec)).1
        refine ⟨?_, ?_, h.sound.decision, fun _ => hjust, fun hf => ?_, fun hf => ?_, fun _ => rfl,
          h.sound.event⟩
        · exact h.place.frame ⟨rfl, rfl, rfl, rfl, rfl, rfl, rfl⟩ (fun _ => rfl) id
            (fun hsealed => absurd hsealed hnot)
        · refine h.logged.keep hrunning hrunning rfl rfl rfl ?_
          simp [Flow.recorded, happlied, ReaderAt.isRecording]
        · exact absurd (hb.symm.trans hf) (by simp)
        · exact absurd (hrec.symm.trans hf) (by simp)
    | recording next =>
      have hloud : s.reader.quiet = false := by rw [hreader]; rfl
      have hreading : s.reader.isRecording = true := by rw [hreader]; rfl
      have happlied := h.sound.reading hreading
      obtain ⟨hnot, hrunning⟩ := running_of_loud h hsome hloud
      have hrec : s.recording = false := by
        by_contra hrec
        have := (h.sound.pending (by simpa using hrec)).2
        rw [hreading] at this
        cases this
      simp only
      refine ⟨?_, ?_, h.sound.decision, h.sound.justified, fun hf => ?_, fun hf => ?_, fun hf => ?_,
        h.sound.event⟩
      · refine h.place.frame ⟨rfl, rfl, rfl, rfl, rfl, rfl, rfl⟩ (fun hf => ?_) id
          (fun hsealed => absurd hsealed hnot)
        exact absurd (hb.symm.trans hf) (by simp)
      · refine h.logged.record_applied h.sound hrunning hrunning happlied rfl rfl ?_ ?_
        · simp [Flow.recorded, hreading]
        · simp [Flow.recorded, happlied, hrec, ReaderAt.isRecording]
      · exact absurd (hb.symm.trans hf) (by simp)
      · exact absurd (hrec.symm.trans hf) (by simp)
      · cases hf
    | leaving next =>
      have hloud : s.reader.quiet = false := by rw [hreader]; rfl
      exact reader_quiet_inv h b hb next .idle (Or.inl hloud) (by rw [hreader]; rfl) rfl

theorem outside_inv (h : FlowInv s) (context : Option ContextError) (cancelled : Bool)
    (hcancel : s.cancelled = true → cancelled = true) (bodyClosed uploaded discarding shutdown : Bool) :
    FlowInv { s with
      context := context, cancelled := cancelled, bodyClosed := bodyClosed, uploaded := uploaded,
      discarding := discarding, shutdown := shutdown } := by
  refine ⟨?_, h.logged.same rfl rfl rfl rfl rfl,
    h.sound.steady (steady_of_quiet rfl)⟩
  refine h.place.frame ⟨rfl, rfl, rfl, rfl, rfl, rfl, rfl⟩ (fun _ => rfl) hcancel ?_
  intro hsealed
  exact ⟨fun hb => ⟨hcancel (hsealed hb).1, (hsealed hb).2⟩, rfl⟩

theorem flowStep_inv (h : FlowInv s) (i : FlowInput) : FlowInv (flowStep c s i) := by
  cases i with
  | handler i => exact handlerStep_inv h i
  | reader length a => exact readerStep_inv h length a
  | cancel e =>
    exact outside_inv h (s.context.or (some e)) true (fun _ => rfl) s.bodyClosed s.uploaded s.discarding
      s.shutdown
  | closeBody => exact outside_inv h s.context s.cancelled id true s.uploaded s.discarding s.shutdown
  | uploaded => exact outside_inv h s.context s.cancelled id s.bodyClosed true s.discarding s.shutdown
  | discarded => exact outside_inv h s.context s.cancelled id s.bodyClosed s.uploaded false s.shutdown
  | shutdown => exact outside_inv h s.context s.cancelled id s.bodyClosed s.uploaded s.discarding true

end Stages

theorem new_inv (c : Call) (flowID : String) (info : Info) (now : ℕ) :
    FlowInv (Flow.new c flowID info now) := by
  have hnone (e : Event) (he : e ∈ (Flow.new c flowID info now).events) : False := by
    simp [Flow.new] at he
  refine ⟨⟨⟨⟨rfl, rfl, rfl⟩, rfl, rfl, rfl, rfl⟩, rfl⟩, ⟨⟨false, rfl, ?_⟩, ?_, ?_, ?_, ?_⟩, ?_⟩
  · exact fun hf => absurd hf Bool.false_ne_true
  · exact fun hf => absurd hf Bool.false_ne_true
  · exact fun e he => (hnone e he).elim
  · exact fun e he => (hnone e he).elim
  · exact fun e he => (hnone e he).elim
  · refine ⟨fun hf => absurd hf Bool.false_ne_true, fun hj => ?_, fun _ => rfl,
      fun hf => absurd hf Bool.false_ne_true, fun hf => absurd hf Bool.false_ne_true,
      fun hf => absurd hf Bool.false_ne_true⟩
    rcases hj with hf | hf | hf <;> exact absurd hf Bool.false_ne_true

end Faultline.HTTP
