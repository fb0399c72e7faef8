import Faultline.HTTPFlow

/-! What every step of a flow keeps: where the deferred functions stand, who may still apply
the fault, and which events have been recorded. -/
namespace Faultline.HTTP

theorem FromRule.http {f : Fault} (h : FromRule f) : HTTPFault f := by
  obtain ⟨lib, y, host, d, hd, p, hp, hhttp, r, hr, rfl⟩ := h
  obtain ⟨c, sources, root, hfinish⟩ := hd.finished
  have hchecked := finish_checked lib host c sources root d hfinish p hp
  obtain ⟨r', path, hrule⟩ := hchecked.rules r hr
  exact ((validateProxyRule_executable p.protocol r' r path hchecked.protocol hrule).http hhttp).fault

def FlowAt.isStart : FlowAt → Bool
  | .start => true
  | _ => false

def FlowAt.isDone : FlowAt → Bool
  | .done => true
  | _ => false

def ReaderAt.quiet : ReaderAt → Bool
  | .idle => true
  | .entered => true
  | _ => false

def ReaderAt.isRecording : ReaderAt → Bool
  | .recording _ => true
  | _ => false

def base : List Deferred := [.cleanup, .deadline, .cancel, .slot, .finish]

/-- Nobody applies the fault any more: a read of the request body, if there is one, stops at
the context. -/
def Sealed (s : Flow) : Prop := s.body.isSome → s.cancelled = true ∧ s.reader.quiet = true

def Unwrapped (s : Flow) : Prop := s.body = none ∧ s.response = none ∧ s.responded = false

def Fresh (s : Flow) : Prop :=
  Unwrapped s ∧ s.applied = false ∧ s.report.applied = false ∧ s.report.reached = false ∧
    s.recording = false

theorem Fresh.unwrapped {s : Flow} (h : Fresh s) : Unwrapped s := h.1

theorem Fresh.applied {s : Flow} (h : Fresh s) : s.applied = false := h.2.1

theorem Fresh.reported {s : Flow} (h : Fresh s) : s.report.applied = false := h.2.2.1

theorem Fresh.reached {s : Flow} (h : Fresh s) : s.report.reached = false := h.2.2.2.1

theorem Fresh.recording {s : Flow} (h : Fresh s) : s.recording = false := h.2.2.2.2

def Acting (s : Flow) (phase : FlowPhase) : Prop :=
  s.report.reached = true ∧ s.report.decision.selected = true ∧
    s.report.decision.fault.phase = phase.name

def Met (s : Flow) (phase : FlowPhase) : Prop :=
  s.report.decision.selected = true → s.report.decision.fault.phase = phase.name →
    s.report.reached = true

def Ahead (s : Flow) : Prop :=
  s.report.decision.fault.phase = afterUpstreamHeaders → s.report.reached = false

def Armed (s : Flow) : Prop :=
  s.body.isSome = true ∧ s.defers = .recover :: .closeBody :: base ∨
    s.body = none ∧ s.defers = .recover :: base

/-- The stack while the deferred functions run: the body is closed before the report is
loaded, and the report is loaded before the flow is finished. -/
def Unwinding (s : Flow) : Prop :=
  s.body.isSome = true ∧ (s.defers = .recover :: .closeBody :: base ∨ s.defers = .closeBody :: base) ∨
    Sealed s ∧ (s.defers = .recover :: base ∨ s.defers = base) ∨
    Sealed s ∧ s.report.applied = s.applied ∧
      (s.defers = [.deadline, .cancel, .slot, .finish] ∨ s.defers = [.cancel, .slot, .finish] ∨
        s.defers = [.slot, .finish] ∨ s.defers = [.finish])

def PlaceAt (s : Flow) : FlowAt → Prop
  | .start => Fresh s ∧ s.defers = []
  | .check | .slot => Fresh s ∧ s.defers = [.finish] ∧ s.events.map Event.type = [.flowStarted]
  | .decide => Fresh s ∧ s.defers = base ∧ s.events.map Event.type = [.flowStarted]
  | .apply .before => Fresh s ∧ s.defers = base
  | .executing .before | .executed .before _ => Acting s .before ∧ Unwrapped s ∧ s.defers = base
  | .wrap => Met s .before ∧ Ahead s ∧ Unwrapped s ∧ s.recording = false ∧ s.defers = base
  | .apply .after => Ahead s ∧ Armed s ∧ s.recording = false ∧ s.responded = true
  | .executing .after | .executed .after _ => Acting s .after ∧ Armed s ∧ s.responded = true
  | .wrapResponse => Met s .after ∧ Armed s ∧ s.recording = false ∧ s.responded = true
  | .proxying => Armed s ∧ (s.responded = false → Ahead s)
  | .served => Armed s ∧ s.recording = false
  | .unwinding => Unwinding s ∧ s.recording = false
  | .closeSource | .joinBody => s.cancelled = true ∧ s.defers = base ∧ s.recording = false
  | .loadApplied => Sealed s ∧ s.defers = base ∧ s.recording = false
  | .cancelFlow | .loadReport => Sealed s ∧ s.defers = base.tail ∧ s.recording = false
  | .joinDiscard | .settle =>
    Sealed s ∧ s.report.applied = s.applied ∧ s.defers = base.tail ∧ s.recording = false
  | .done => Sealed s ∧ s.report.applied = s.applied ∧ s.recording = false

def Place (s : Flow) : Prop := PlaceAt s s.stage

def Flow.recorded (s : Flow) : Bool := s.applied && !s.recording && !s.reader.isRecording

def Flow.types (s : Flow) (decided : Bool) : List EventType :=
  if s.stage.isStart then []
  else .flowStarted :: ((if decided then [.decision] else []) ++
    (if s.report.reached then [.faultReached] else []) ++
    (if s.recorded then [.faultApplied] else []) ++
    (if s.stage.isDone then [.flowFinished] else []))

structure Logged (s : Flow) : Prop where
  types : ∃ decided, s.events.map Event.type = s.types decided ∧
    (s.report.reached = true → decided = true)
  selected : s.report.decision.selected = true → .decision ∈ s.events.map Event.type
  decision : ∀ e ∈ s.events, e.type = .decision → e.selected = s.report.decision.selected
  applied : ∀ e ∈ s.events, e.type = .faultApplied →
    e.selected = true ∧ e.reached = true ∧ e.applied = true
  finished : ∀ e ∈ s.events, e.type = .flowFinished → e.applied = s.applied

structure Sound (s : Flow) : Prop where
  decision : s.report.decision.selected = true → HTTPFault s.report.decision.fault
  justified : s.applied = true ∨ s.body.isSome = true ∨ s.response.isSome = true →
    s.report.reached = true ∧ s.report.decision.selected = true
  reader : s.body = none → s.reader = .idle
  pending : s.recording = true → s.applied = true ∧ s.reader.isRecording = false
  reading : s.reader.isRecording = true → s.applied = true
  event : s.report.reached = true → s.appliedEvent.type = .faultApplied ∧
    s.appliedEvent.selected = true ∧ s.appliedEvent.reached = true ∧ s.appliedEvent.applied = true

structure FlowInv (s : Flow) : Prop where
  place : Place s
  logged : Logged s
  sound : Sound s

/-- The fields that `Place` looks at, apart from what a reader and the context can change. -/
structure SameControl (s s' : Flow) : Prop where
  stage : s'.stage = s.stage
  defers : s'.defers = s.defers
  body : s'.body.isSome = s.body.isSome
  response : s'.response = s.response
  responded : s'.responded = s.responded
  recording : s'.recording = s.recording
  report : s'.report = s.report

theorem Place.frame {s s' : Flow} (h : Place s) (same : SameControl s s')
    (hevents : s.body = none → s'.events = s.events) (hcancel : s.cancelled = true → s'.cancelled = true)
    (hsealed : Sealed s → Sealed s' ∧ s'.applied = s.applied) : Place s' := by
  obtain ⟨hstage, hdefers, hbody, hresponse, hresponded, hrecording, hreport⟩ := same
  have hnone : s.body = none → s'.body = none := by
    intro hn
    rw [hn] at hbody
    exact Option.isSome_eq_false_iff.mp hbody |> Option.isNone_iff_eq_none.mp
  have hseal (hn : s.body = none) : Sealed s := by
    intro hs
    simp [hn] at hs
  have hunwrapped (hu : Unwrapped s) : Unwrapped s' :=
    ⟨hnone hu.1, hresponse.trans hu.2.1, hresponded.trans hu.2.2⟩
  have hfresh (hf : Fresh s) : Fresh s' :=
    ⟨hunwrapped hf.unwrapped, (hsealed (hseal hf.unwrapped.1)).2.trans hf.applied,
      hreport ▸ hf.reported, hreport ▸ hf.reached, hrecording.trans hf.recording⟩
  have harmed (ha : Armed s) : Armed s' := by
    rcases ha with ⟨hb, hd⟩ | ⟨hb, hd⟩
    · exact Or.inl ⟨hbody.trans hb, hdefers.trans hd⟩
    · exact Or.inr ⟨hnone hb, hdefers.trans hd⟩
  have hmet (phase : FlowPhase) (hm : Met s phase) : Met s' phase := by
    unfold Met
    rw [hreport]
    exact hm
  have hacting (phase : FlowPhase) (ha : Acting s phase) : Acting s' phase := by
    unfold Acting
    rw [hreport]
    exact ha
  have hahead (ha : Ahead s) : Ahead s' := by
    unfold Ahead
    rw [hreport]
    exact ha
  have hunwinding (hu : Unwinding s) : Unwinding s' := by
    unfold Unwinding
    rw [hbody, hdefers, hreport]
    rcases hu with hu | ⟨hs, hu⟩ | ⟨hs, happlied, hu⟩
    · exact Or.inl hu
    · exact Or.inr (Or.inl ⟨(hsealed hs).1, hu⟩)
    · exact Or.inr (Or.inr ⟨(hsealed hs).1, happlied.trans (hsealed hs).2.symm, hu⟩)
  unfold Place at h ⊢
  rw [hstage]
  unfold PlaceAt at h ⊢
  split at h
  · exact ⟨hfresh h.1, hdefers.trans h.2⟩
  · exact ⟨hfresh h.1, hdefers.trans h.2.1, by rw [hevents h.1.unwrapped.1]; exact h.2.2⟩
  · exact ⟨hfresh h.1, hdefers.trans h.2.1, by rw [hevents h.1.unwrapped.1]; exact h.2.2⟩
  · exact ⟨hfresh h.1, hdefers.trans h.2.1, by rw [hevents h.1.unwrapped.1]; exact h.2.2⟩
  · exact ⟨hfresh h.1, hdefers.trans h.2⟩
  · exact ⟨hacting _ h.1, hunwrapped h.2.1, hdefers.trans h.2.2⟩
  · exact ⟨hacting _ h.1, hunwrapped h.2.1, hdefers.trans h.2.2⟩
  · exact ⟨hmet _ h.1, hahead h.2.1, hunwrapped h.2.2.1, hrecording.trans h.2.2.2.1,
      hdefers.trans h.2.2.2.2⟩
  · exact ⟨hahead h.1, harmed h.2.1, hrecording.trans h.2.2.1, hresponded.trans h.2.2.2⟩
  · exact ⟨hacting _ h.1, harmed h.2.1, hresponded.trans h.2.2⟩
  · exact ⟨hacting _ h.1, harmed h.2.1, hresponded.trans h.2.2⟩
  · exact ⟨hmet _ h.1, harmed h.2.1, hrecording.trans h.2.2.1, hresponded.trans h.2.2.2⟩
  · exact ⟨harmed h.1, fun hr => hahead (h.2 (hresponded.symm.trans hr))⟩
  · exact ⟨harmed h.1, hrecording.trans h.2⟩
  · exact ⟨hunwinding h.1, hrecording.trans h.2⟩
  · exact ⟨hcancel h.1, hdefers.trans h.2.1, hrecording.trans h.2.2⟩
  · exact ⟨hcancel h.1, hdefers.trans h.2.1, hrecording.trans h.2.2⟩
  · exact ⟨(hsealed h.1).1, hdefers.trans h.2.1, hrecording.trans h.2.2⟩
  · exact ⟨(hsealed h.1).1, hdefers.trans h.2.1, hrecording.trans h.2.2⟩
  · exact ⟨(hsealed h.1).1, hdefers.trans h.2.1, hrecording.trans h.2.2⟩
  · exact ⟨(hsealed h.1).1, (hreport ▸ h.2.1).trans (hsealed h.1).2.symm, hdefers.trans h.2.2.1,
      hrecording.trans h.2.2.2⟩
  · exact ⟨(hsealed h.1).1, (hreport ▸ h.2.1).trans (hsealed h.1).2.symm, hdefers.trans h.2.2.1,
      hrecording.trans h.2.2.2⟩
  · exact ⟨(hsealed h.1).1, (hreport ▸ h.2.1).trans (hsealed h.1).2.symm, hrecording.trans h.2.2⟩

structure Steady (s s' : Flow) : Prop where
  decision : s'.report.decision = s.report.decision
  reached : s'.report.reached = s.report.reached
  applied : s'.applied = s.applied
  recording : s'.recording = s.recording
  body : s'.body = s.body
  response : s'.response = s.response
  reader : s'.reader = s.reader
  appliedEvent : s'.appliedEvent = s.appliedEvent
  events : s'.events = s.events

/-- The same fields in one value, so that one equation says it. -/
def Flow.quiet (s : Flow) :=
  (s.report.decision, s.report.reached, s.applied, s.recording, s.body, s.response, s.reader, s.appliedEvent,
    s.events)

theorem steady_of_quiet {s s' : Flow} (h : s'.quiet = s.quiet) : Steady s s' := by
  simp only [Flow.quiet, Prod.mk.injEq] at h
  obtain ⟨h1, h2, h3, h4, h5, h6, h7, h8, h9⟩ := h
  exact ⟨h1, h2, h3, h4, h5, h6, h7, h8, h9⟩

theorem Sound.steady {s s' : Flow} (h : Sound s) (hs : Steady s s') : Sound s' where
  decision := by
    rw [hs.decision]
    exact h.decision
  justified := by
    rw [hs.applied, hs.body, hs.response, hs.reached, hs.decision]
    exact h.justified
  reader := by
    rw [hs.body, hs.reader]
    exact h.reader
  pending := by
    rw [hs.recording, hs.applied, hs.reader]
    exact h.pending
  reading := by
    rw [hs.reader, hs.applied]
    exact h.reading
  event := by
    rw [hs.reached, hs.appliedEvent]
    exact h.event

def Running (s : Flow) : Prop := s.stage.isStart = false ∧ s.stage.isDone = false

theorem Flow.types_running (s : Flow) (h : Running s) (decided : Bool) :
    s.types decided = .flowStarted :: ((if decided then [.decision] else []) ++
      (if s.report.reached then [.faultReached] else []) ++
      (if s.recorded then [.faultApplied] else [])) := by
  simp [Flow.types, h.1, h.2]

theorem Logged.keep {s s' : Flow} (h : Logged s) (hs : Running s) (hs' : Running s')
    (hevents : s'.events = s.events) (hreached : s'.report.reached = s.report.reached)
    (hselected : s'.report.decision.selected = s.report.decision.selected)
    (hrecorded : s'.recorded = s.recorded) : Logged s' := by
  obtain ⟨decided, htypes, hdecided⟩ := h.types
  rw [s.types_running hs] at htypes
  refine ⟨⟨decided, ?_, by rw [hreached]; exact hdecided⟩, ?_, ?_, ?_, ?_⟩
  · rw [s'.types_running hs', hevents, hreached, hrecorded, htypes]
  · rw [hevents, hselected]
    exact h.selected
  · rw [hevents, hselected]
    exact h.decision
  · rw [hevents]
    exact h.applied
  · intro e he hfinished
    -- a running flow has recorded no end
    rw [hevents] at he
    have hmem := List.mem_map_of_mem (f := Event.type) he
    rw [htypes, hfinished] at hmem
    cases decided <;> cases s.report.reached <;> cases s.recorded <;> simp at hmem

theorem Logged.steady {s s' : Flow} (h : Logged s) (hs : Steady s s') (hr : Running s)
    (hr' : Running s') : Logged s' := by
  apply h.keep hr hr' hs.events hs.reached
  · rw [hs.decision]
  · unfold Flow.recorded
    rw [hs.applied, hs.recording, hs.reader]

theorem Logged.add {s s' : Flow} (h : Logged s) (hs : Running s) (e : Event)
    (hevents : s'.events = s.events ++ [e]) (hfinished : e.type = .flowFinished → e.applied = s'.applied)
    (htypes : ∀ decided, s.events.map Event.type = s.types decided →
      (s.report.reached = true → decided = true) →
      ∃ decided', s.types decided ++ [e.type] = s'.types decided' ∧
        (s'.report.reached = true → decided' = true))
    (hselected : s'.report.decision.selected = true →
      s.report.decision.selected = true ∨ e.type = .decision)
    (hold : ∀ d ∈ s.events, d.type = .decision → d.selected = s'.report.decision.selected)
    (hdecision : e.type = .decision → e.selected = s'.report.decision.selected)
    (happlied : e.type = .faultApplied → e.selected = true ∧ e.reached = true ∧ e.applied = true) :
    Logged s' := by
  obtain ⟨decided, ht, hd⟩ := h.types
  obtain ⟨decided', htypes', hdecided'⟩ := htypes decided ht hd
  refine ⟨⟨decided', ?_, hdecided'⟩, ?_, ?_, ?_, ?_⟩
  · rw [hevents, List.map_append, ht]
    exact htypes'
  · intro hsel
    rw [hevents, List.map_append]
    rcases hselected hsel with hsel | htype
    · exact List.mem_append_left _ (h.selected hsel)
    · exact List.mem_append_right _ (by simp [htype])
  · rw [hevents, List.forall_mem_append, List.forall_mem_singleton]
    exact ⟨hold, hdecision⟩
  · rw [hevents, List.forall_mem_append, List.forall_mem_singleton]
    exact ⟨h.applied, happlied⟩
  · rw [hevents, List.forall_mem_append, List.forall_mem_singleton]
    refine ⟨?_, hfinished⟩
    intro d hmem htype
    have hmem' := List.mem_map_of_mem (f := Event.type) hmem
    rw [ht, s.types_running hs, htype] at hmem'
    cases decided <;> cases s.report.reached <;> cases s.recorded <;> simp at hmem'

theorem FlowInv.at {s : Flow} {stage : FlowAt} (h : FlowInv s) (hstage : s.stage = stage) :
    PlaceAt s stage := hstage ▸ h.place

theorem running_at {s : Flow} {stage : FlowAt} (hstage : s.stage = stage)
    (h : stage.isStart = false ∧ stage.isDone = false) : Running s := by
  unfold Running
  rw [hstage]
  exact h

def Leaving (s : Flow) : FlowPhase → Prop
  | .before => Unwrapped s ∧ s.defers = base
  | .after => Armed s

theorem sealed_of_none {s : Flow} (h : s.body = none) : Sealed s := by
  intro hs
  rw [h] at hs
  cases hs

theorem Leaving.unwinding {s : Flow} {phase : FlowPhase} (h : Leaving s phase) : Unwinding s := by
  cases phase with
  | before => exact Or.inr (Or.inl ⟨sealed_of_none h.1.1, Or.inr h.2⟩)
  | after =>
    rcases h with ⟨hb, hd⟩ | ⟨hb, hd⟩
    · exact Or.inl ⟨hb, Or.inl hd⟩
    · exact Or.inr (Or.inl ⟨sealed_of_none hb, Or.inl hd⟩)

theorem fail_eq (c : Call) (s : Flow) (err : Option FlowError) : ∃ outcome e terminal disconnected,
    (s.fail c err).1 = { s with
      report := { s.report with outcome := outcome, err := e }
      terminal := terminal
      disconnected := disconnected } := by
  unfold Flow.fail
  split
  · exact ⟨_, _, _, _, rfl⟩
  · split
    · simp only
      split_ifs
      · exact ⟨_, _, _, _, rfl⟩
      · unfold Flow.closeConnection
        split_ifs
        · exact ⟨_, _, _, _, rfl⟩
        · exact ⟨_, _, _, _, rfl⟩
    · exact ⟨_, _, _, _, rfl⟩

theorem FlowInv.of_quiet {s s' : Flow} (hl : Logged s) (hs : Sound s) (hr : Running s)
    (hquiet : s'.quiet = s.quiet) (hr' : Running s') (hplace : Place s') : FlowInv s' :=
  ⟨hplace, hl.steady (steady_of_quiet hquiet) hr hr', hs.steady (steady_of_quiet hquiet)⟩

theorem failed_inv (c : Call) (s : Flow) (phase : FlowPhase) (err : Option FlowError)
    (hl : Logged s) (hs : Sound s) (hr : Running s) (hrec : s.recording = false)
    (hleave : Leaving s phase) : FlowInv (s.failed c phase err) := by
  obtain ⟨outcome, e, terminal, disconnected, hfail⟩ := fail_eq c s err
  have hunwind := hleave.unwinding
  unfold Flow.failed
  rw [hfail]
  split_ifs
  · exact .of_quiet hl hs hr rfl ⟨rfl, rfl⟩ ⟨hunwind, hrec⟩
  · cases phase with
    | before => exact .of_quiet hl hs hr rfl ⟨rfl, rfl⟩ ⟨hunwind, hrec⟩
    | after => exact .of_quiet hl hs hr rfl ⟨rfl, rfl⟩ ⟨hleave, hrec⟩

theorem FlowInv.move {s s' : Flow} (h : FlowInv s) (hr : Running s) (hs : s'.quiet = s.quiet) (hr' : Running s')
    (hplace : Place s') : FlowInv s' := .of_quiet h.logged h.sound hr hs hr' hplace

end Faultline.HTTP
