import Faultline.EngineLaw
import Faultline.HTTPFlowStages

/-! Runs of one flow. It records its events in a fixed order, and it can always be finished. -/
namespace Faultline.HTTP

def serve (c : Call) (s : Flow) (inputs : List FlowInput) : Flow :=
  (run (fun s i => ((), flowStep c s i)) s inputs).2

theorem serve_inv (c : Call) (s : Flow) (h : FlowInv s) (inputs : List FlowInput) :
    FlowInv (serve c s inputs) :=
  run_invariant _ FlowInv (fun _ i hs => flowStep_inv hs i) s h inputs

theorem serve_append (c : Call) (s : Flow) (inputs more : List FlowInput) :
    serve c s (inputs ++ more) = serve c (serve c s inputs) more := by
  unfold serve
  rw [run_append]

/-! A flow can be finished. -/

/-- How far a flow is from its end, when the executor and the reverse proxy panic. -/
def Flow.rank (s : Flow) : ℕ :=
  match s.stage with
  | .start => 70
  | .check => 69
  | .slot => 68
  | .decide => 67
  | .apply _ => 66
  | .executing _ => 65
  | .executed _ _ => 64
  | .wrap | .wrapResponse => 63
  | .proxying => 62
  | .served => 61
  | .unwinding => 8 * s.defers.length
  | .closeSource => 8 * s.defers.length + 3
  | .joinBody => 8 * s.defers.length + 2
  | .loadApplied => 8 * s.defers.length + 1
  | .cancelFlow => 8 * s.defers.length + 4
  | .loadReport => 8 * s.defers.length + 3
  | .joinDiscard => 8 * s.defers.length + 2
  | .settle => 8 * s.defers.length + 1
  | .done => 0

section Progress
variable {c : Call} {s : Flow}

theorem Unwinding.short (h : Unwinding s) : s.defers.length ≤ 7 ∧ s.defers ≠ [] := by
  rcases h with ⟨-, hd | hd⟩ | ⟨-, hd | hd⟩ | ⟨-, -, hd | hd | hd | hd⟩
  all_goals
    rw [hd]
    decide

theorem rank_unwinding (h : FlowInv s) (hstage : s.stage = .unwinding) : s.rank ≤ 56 := by
  have hshort := (h.at hstage).1.short.1
  unfold Flow.rank
  rw [hstage]
  simp only
  omega

theorem failed_stage (c : Call) (s : Flow) (phase : FlowPhase) (err : Option FlowError) :
    (s.failed c phase err).stage = .unwinding ∨ (s.failed c phase err).stage = .served := by
  unfold Flow.failed
  split_ifs
  · exact Or.inl rfl
  · cases phase
    · exact Or.inl rfl
    · exact Or.inr rfl

theorem rank_failed {phase : FlowPhase} {err : Option FlowError} (h : FlowInv (s.failed c phase err)) :
    (s.failed c phase err).rank ≤ 61 := by
  rcases failed_stage c s phase err with hstage | hstage
  · exact (rank_unwinding h hstage).trans (by decide)
  · unfold Flow.rank
    rw [hstage]

theorem rank_passed (s : Flow) (phase : FlowPhase) : (s.passed phase).rank = 63 := by
  cases phase <;> rfl

theorem reader_idles (h : FlowInv s) : ∃ inputs, (serve c s inputs).reader = .idle ∧
    (serve c s inputs).stage = s.stage ∧ (serve c s inputs).defers = s.defers ∧
    (serve c s inputs).recording = s.recording := by
  let Idles (s : Flow) : Prop := ∃ inputs, (serve c s inputs).reader = .idle ∧
    (serve c s inputs).stage = s.stage ∧ (serve c s inputs).defers = s.defers ∧
    (serve c s inputs).recording = s.recording
  let answer : SourceAnswer := ⟨0, none, none⟩
  have hread (s s' : Flow) (hs : flowStep c s (.reader 0 answer) = s') (hstage : s'.stage = s.stage)
      (hdefers : s'.defers = s.defers) (hrec : s'.recording = s.recording) (hidles : Idles s') :
      Idles s := by
    obtain ⟨inputs, hr, hst, hd, hre⟩ := hidles
    have heq : serve c s (.reader 0 answer :: inputs) = serve c s' inputs := by
      rw [← hs]
      rfl
    refine ⟨.reader 0 answer :: inputs, ?_⟩
    rw [heq]
    exact ⟨hr, hst.trans hstage, hd.trans hdefers, hre.trans hrec⟩
  have hidle (s : Flow) (hr : s.reader = .idle) : Idles s := ⟨[], hr, rfl, rfl, rfl⟩
  have hleaving (s : Flow) (b next : Body) (hb : s.body = some b) (hr : s.reader = .leaving next) :
      Idles s := by
    apply hread s { s with body := some next, reader := .idle } _ rfl rfl rfl
    · exact hidle _ rfl
    · simp [flowStep, readerStep, hb, hr]
  have hrecording (s : Flow) (b next : Body) (hb : s.body = some b) (hr : s.reader = .recording next) :
      Idles s := by
    apply hread s { s with events := s.events ++ [s.appliedEvent], reader := .leaving next } _ rfl rfl rfl
    · exact hleaving _ b next hb rfl
    · simp [flowStep, readerStep, hb, hr]
  have happlying (s : Flow) (b next : Body) (hb : s.body = some b) (hr : s.reader = .applying next) :
      Idles s := by
    by_cases happlied : s.applied = true
    · apply hread s { s with reader := .leaving next } _ rfl rfl rfl
      · exact hleaving _ b next hb rfl
      · simp [flowStep, readerStep, hb, hr, happlied]
    · apply hread s { s with applied := true, reader := .recording next } _ rfl rfl rfl
      · exact hrecording _ b next hb rfl
      · simp [flowStep, readerStep, hb, hr, happlied]
  have hsource (s : Flow) (b : Body) (closed : Bool) (hb : s.body = some b)
      (hr : s.reader = .source closed) : Idles s := by
    cases hread' : b.read 0 none (if closed then { answer with size := 0 } else answer) with
    | none =>
      apply hread s { s with reader := .idle } _ rfl rfl rfl
      · exact hidle _ rfl
      · simp [flowStep, readerStep, hb, hr, hread']
    | some result =>
      obtain ⟨r, next⟩ := result
      by_cases happlied : r.applied = true
      · apply hread s { s with reader := .applying next } _ rfl rfl rfl
        · exact happlying _ b next hb rfl
        · simp [flowStep, readerStep, hb, hr, hread', happlied]
      · apply hread s { s with body := some next, reader := .idle } _ rfl rfl rfl
        · exact hidle _ rfl
        · simp [flowStep, readerStep, hb, hr, hread', happlied]
  cases hb : s.body with
  | none => exact hidle s (h.sound.reader hb)
  | some b =>
    cases hr : s.reader with
    | idle => exact hidle s hr
    | entered =>
      by_cases hcancelled : s.cancelled = true
      · apply hread s { s with reader := .idle } _ rfl rfl rfl
        · exact hidle _ rfl
        · simp [flowStep, readerStep, hb, hr, hcancelled]
      · apply hread s { s with reader := .source s.bodyClosed } _ rfl rfl rfl
        · exact hsource _ b _ hb rfl
        · simp [flowStep, readerStep, hb, hr, hcancelled]
    | source closed => exact hsource s b closed hb hr
    | applying next => exact happlying s b next hb hr
    | recording next => exact hrecording s b next hb hr
    | leaving next => exact hleaving s b next hb hr

theorem progress_ready (h : FlowInv s) (hrec : s.recording = false) (hdone : s.stage.isDone = false) :
    ∃ inputs, (serve c s inputs).rank < s.rank := by
  -- the next state keeps the invariant, which bounds its stack
  have hone (i : HandlerInput) (s' : Flow) (hs : handlerStep c s i = s')
      (hrank : FlowInv s' → s'.rank < s.rank) : ∃ inputs, (serve c s inputs).rank < s.rank := by
    refine ⟨[.handler i], ?_⟩
    have heq : serve c s [.handler i] = s' := hs
    rw [heq]
    exact hrank (hs ▸ handlerStep_inv h i)
  have hunwound (s' : Flow) (hstage' : s'.stage = .unwinding) (hlarge : 56 < s.rank) (h' : FlowInv s') :
      s'.rank < s.rank := (rank_unwinding h' hstage').trans_lt hlarge
  cases hstage : s.stage with
  | start =>
    apply hone (.step 0) { s.record c .flowStarted with defers := [.finish], stage := .check }
    · simp [handlerStep, hrec, hstage]
    · simp [Flow.rank, hstage]
  | check =>
    apply hone (.step 0) (checkStep c s)
    · simp [handlerStep, hrec, hstage]
    · unfold checkStep
      split_ifs
      · exact hunwound _ rfl (by simp [Flow.rank, hstage])
      · exact fun _ => by simp [Flow.rank, hstage]
  | slot =>
    apply hone (.slot false) (s.refuse "proxy_overload")
    · simp [handlerStep, hrec, hstage, slotStep]
    · exact hunwound _ rfl (by simp [Flow.rank, hstage])
  | decide =>
    apply hone (.step 0) (decideStep c s)
    · simp [handlerStep, hrec, hstage]
    · unfold decideStep
      simp only
      split
      · exact hunwound _ rfl (by simp [Flow.rank, hstage])
      · exact fun _ => by simp [Flow.rank, hstage]
  | apply phase =>
    apply hone (.step 0) (applyStep c s phase)
    · simp [handlerStep, hrec, hstage]
    · have hrank : s.rank = 66 := by simp [Flow.rank, hstage]
      rw [hrank]
      unfold applyStep
      simp only
      split_ifs
      · intro _
        rw [rank_passed]
        decide
      · intro _
        rw [rank_passed]
        decide
      · exact fun h' => (rank_failed h').trans_lt (by decide)
      · exact fun _ => by simp [Flow.rank]
  | executing phase =>
    apply hone .executorPanics s.panic
    · simp [handlerStep, hrec, hstage]
    · exact hunwound _ rfl (by simp [Flow.rank, hstage])
  | executed phase err =>
    apply hone (.step 0) (executedStep c s phase err)
    · simp [handlerStep, hrec, hstage]
    · have hrank : s.rank = 64 := by simp [Flow.rank, hstage]
      rw [hrank]
      cases err with
      | some e => exact fun h' => (rank_failed h').trans_lt (by decide)
      | none =>
        unfold executedStep
        simp only
        split_ifs
        · exact fun h' => (rank_failed h').trans_lt (by decide)
        · intro _
          rw [rank_passed]
          decide
  | wrap =>
    apply hone (.step 0) (wrapStep s)
    · simp [handlerStep, hrec, hstage]
    · intro _
      unfold wrapStep
      simp only
      split_ifs <;> simp [Flow.rank, hstage]
  | wrapResponse =>
    apply hone (.step 0) (wrapResponseStep c s)
    · simp [handlerStep, hrec, hstage]
    · intro _
      unfold wrapResponseStep
      simp only
      split_ifs <;> simp [Flow.rank, hstage]
  | proxying =>
    apply hone (.proxy .panics) s.panic
    · simp [handlerStep, hrec, hstage, proxyStep]
    · exact hunwound _ rfl (by simp [Flow.rank, hstage])
  | served =>
    apply hone (.grpcStatus "0") (servedStep c s "0")
    · simp [handlerStep, hrec, hstage]
    · have hnext : (servedStep c s "0").stage = .unwinding := by
        unfold servedStep
        split_ifs <;> rfl
      exact hunwound _ hnext (by simp [Flow.rank, hstage])
  | unwinding =>
    apply hone (.step 0) (unwindStep c s 0)
    · simp [handlerStep, hrec, hstage]
    · intro _
      obtain ⟨hunwind, -⟩ := h.at hstage
      have hrank : s.rank = 8 * s.defers.length := by simp [Flow.rank, hstage]
      rw [hrank]
      unfold unwindStep
      rcases hunwind with ⟨-, hd | hd⟩ | ⟨-, hd | hd⟩ | ⟨-, -, hd | hd | hd | hd⟩
      all_goals rw [hd]
      · simp only
        split_ifs <;> simp [Flow.rank, hstage, base]
      · simp [Flow.rank, base]
      · simp only
        split_ifs <;> simp [Flow.rank, hstage, base]
      · simp [Flow.rank, base]
      · simp [Flow.rank, hstage]
      · simp [Flow.rank, hstage]
      · simp [Flow.rank, hstage]
      · simp [Flow.rank, Flow.record]
  | closeSource =>
    apply hone (.step 0) { s with bodyClosed := true, stage := .joinBody }
    · simp [handlerStep, hrec, hstage]
    · simp [Flow.rank, hstage]
  | joinBody =>
    obtain ⟨inputs, hidle, hstage', hdefers, hrec'⟩ := reader_idles (c := c) h
    refine ⟨inputs ++ [.handler (.step 0)], ?_⟩
    rw [serve_append]
    have heq : serve c (serve c s inputs) [.handler (.step 0)] =
        { serve c s inputs with stage := .loadApplied } := by
      show handlerStep c (serve c s inputs) (.step 0) = _
      simp [handlerStep, hrec', hrec, hstage', hstage, hidle]
    rw [heq]
    simp [Flow.rank, hdefers, hstage]
  | loadApplied =>
    apply hone (.step 0) (({ s with report := { s.report with applied := s.applied } } : Flow).return)
    · simp [handlerStep, hrec, hstage]
    · simp [Flow.rank, hstage, Flow.return]
  | cancelFlow =>
    apply hone (.step 0) { s with cancelled := true, stage := .loadReport }
    · simp [handlerStep, hrec, hstage]
    · simp [Flow.rank, hstage]
  | loadReport =>
    apply hone (.step 0)
      { s with report := { s.report with applied := s.applied }, stage := .joinDiscard }
    · simp [handlerStep, hrec, hstage]
    · simp [Flow.rank, hstage]
  | joinDiscard =>
    refine ⟨[.discarded, .handler (.step 0)], ?_⟩
    have heq : serve c s [.discarded, .handler (.step 0)] =
        { s with discarding := false, stage := .settle } := by
      show handlerStep c { s with discarding := false } (.step 0) = _
      simp [handlerStep, hrec, hstage]
    rw [heq]
    simp [Flow.rank, hstage]
  | settle =>
    obtain ⟨outcome, err, kind, heq⟩ := settle_eq s
    apply hone (.step 0) (settleStep s)
    · simp [handlerStep, hrec, hstage]
    · rw [heq]
      simp [Flow.rank, hstage, Flow.return]
  | done =>
    rw [hstage] at hdone
    cases hdone

theorem progress (h : FlowInv s) (hdone : s.stage.isDone = false) :
    ∃ inputs, (serve c s inputs).rank < s.rank := by
  by_cases hrec : s.recording = true
  · -- the pending event comes first
    have hstep : serve c s [.handler (.step 0)] =
        { s with recording := false, events := s.events ++ [s.appliedEvent] } := by
      show handlerStep c s (.step 0) = _
      unfold handlerStep
      rw [if_pos hrec]
    have h' := recording_inv h hrec
    obtain ⟨inputs, hrank⟩ := progress_ready (c := c) h' rfl hdone
    refine ⟨.handler (.step 0) :: inputs, ?_⟩
    have heq := serve_append c s [.handler (.step 0)] inputs
    rw [hstep] at heq
    rw [List.singleton_append] at heq
    rw [heq]
    exact hrank
  · exact progress_ready h (by simpa using hrec) hdone

theorem completes (h : FlowInv s) : ∃ inputs, (serve c s inputs).stage.isDone = true := by
  induction hn : s.rank using Nat.strong_induction_on generalizing s with
  | _ n ih =>
    by_cases hdone : s.stage.isDone = true
    · exact ⟨[], hdone⟩
    · obtain ⟨inputs, hrank⟩ := progress (c := c) h (by simpa using hdone)
      obtain ⟨more, hmore⟩ := ih _ (hn ▸ hrank) (serve_inv c s h inputs) rfl
      refine ⟨inputs ++ more, ?_⟩
      rw [serve_append]
      exact hmore

end Progress

/-! The events of a flow. -/

def eventTypes (s : Flow) : List EventType := s.events.map Event.type

structure FlowLaw (c : Call) (s : Flow) : Prop where
  silent : s.stage.isStart = true → s.events = []
  /-- The start is recorded once, and first. -/
  started : s.stage.isStart = false →
    ∃ rest, eventTypes s = .flowStarted :: rest ∧ .flowStarted ∉ rest
  unfinished : s.stage.isDone = false → .flowFinished ∉ eventTypes s
  /-- The end is recorded once, and last. -/
  finished : s.stage.isDone = true →
    ∃ front, eventTypes s = front ++ [.flowFinished] ∧ .flowFinished ∉ front
  decision : (eventTypes s).count .decision ≤ 1
  applied : (eventTypes s).count .faultApplied ≤ 1
  /-- The end says whether the fault was applied. -/
  reported : ∀ e ∈ s.events, e.type = .flowFinished →
    (e.applied = true ↔ .faultApplied ∈ eventTypes s)
  /-- The fault was selected and reached before it was applied. -/
  justified : ∀ before e after, s.events = before ++ e :: after → e.type = .faultApplied →
    (∃ d ∈ before, d.type = .decision ∧ d.selected = true) ∧ ∃ r ∈ before, r.type = .faultReached
  completes : ∃ more, (serve c s more).stage.isDone = true

section Law
variable {c : Call} {s : Flow}

theorem recorded_done (h : FlowInv s) (hstage : s.stage = .done) : s.recorded = s.applied := by
  obtain ⟨hsealed, -, hrec⟩ := h.at hstage
  have hreader : s.reader.isRecording = false := by
    cases hb : s.body with
    | none =>
      rw [h.sound.reader hb]
      rfl
    | some b =>
      have hquiet := (hsealed (by simp [hb])).2
      cases hr : s.reader <;> rw [hr] at hquiet <;> first | rfl | cases hquiet
  simp [Flow.recorded, hrec, hreader]

theorem isDone_iff (stage : FlowAt) : stage.isDone = true ↔ stage = .done := by
  cases stage <;> simp [FlowAt.isDone]

theorem isStart_iff (stage : FlowAt) : stage.isStart = true ↔ stage = .start := by
  cases stage <;> simp [FlowAt.isStart]

theorem mem_types (s : Flow) (decided : Bool) :
    (.flowStarted ∈ s.types decided ↔ s.stage.isStart = false) ∧
      (.flowFinished ∈ s.types decided ↔ s.stage.isDone = true) ∧
      (.faultApplied ∈ s.types decided ↔ s.stage.isStart = false ∧ s.recorded = true) := by
  unfold Flow.types
  cases hstart : s.stage.isStart with
  | true =>
    have hdone : s.stage.isDone = false := by
      rw [isStart_iff] at hstart
      rw [hstart]
      rfl
    simp [hdone]
  | false => cases decided <;> cases s.report.reached <;> cases s.recorded <;> cases s.stage.isDone <;> simp

theorem applied_of_recorded (h : s.recorded = true) : s.applied = true := by
  unfold Flow.recorded at h
  simp only [Bool.and_eq_true] at h
  exact h.1.1

theorem types_nodup (s : Flow) (decided : Bool) : (s.types decided).Nodup := by
  unfold Flow.types
  cases s.stage.isStart <;> cases decided <;> cases s.report.reached <;> cases s.recorded <;>
    cases s.stage.isDone <;> decide

theorem types_applied (h : FlowInv s) (decided : Bool) (hdecided : s.report.reached = true → decided = true)
    (happlied : .faultApplied ∈ s.types decided) : ∃ after,
      s.types decided = [.flowStarted, .decision, .faultReached] ++ .faultApplied :: after ∧
        .faultApplied ∉ after := by
  obtain ⟨hstart, hrecorded⟩ := (mem_types s decided).2.2.mp happlied
  have hset := applied_of_recorded hrecorded
  have hreached := (h.sound.justified (Or.inl hset)).1
  refine ⟨if s.stage.isDone then [.flowFinished] else [], ?_, ?_⟩
  · simp [Flow.types, hstart, hrecorded, hreached, hdecided hreached]
  · split_ifs <;> simp

theorem flow_law (h : FlowInv s) : FlowLaw c s := by
  obtain ⟨decided, htypes, hdecided⟩ := h.logged.types
  have hnodup : (eventTypes s).Nodup := by
    unfold eventTypes
    rw [htypes]
    exact types_nodup s decided
  obtain ⟨-, hfinished, happlied⟩ := mem_types s decided
  constructor
  · intro hstart
    simpa [Flow.types, hstart] using htypes
  · intro hstart
    have hcons : ∃ rest, s.types decided = .flowStarted :: rest := by
      rw [Flow.types, if_neg (by simp [hstart])]
      exact ⟨_, rfl⟩
    obtain ⟨rest, hrest⟩ := hcons
    have heq : eventTypes s = .flowStarted :: rest := htypes.trans hrest
    rw [heq] at hnodup
    exact ⟨rest, heq, (List.nodup_cons.mp hnodup).1⟩
  · intro hdone hmem
    rw [eventTypes, htypes, hfinished, hdone] at hmem
    cases hmem
  · intro hdone
    have hstart : s.stage.isStart = false := by
      rw [isDone_iff] at hdone
      rw [hdone]
      rfl
    have hconcat : ∃ front, s.types decided = front ++ [.flowFinished] := by
      rw [Flow.types, if_neg (by simp [hstart]), hdone, if_pos rfl, ← List.cons_append]
      exact ⟨_, rfl⟩
    obtain ⟨front, hfront⟩ := hconcat
    have heq : eventTypes s = front ++ [.flowFinished] := htypes.trans hfront
    refine ⟨front, heq, fun hmem => ?_⟩
    rw [heq, List.nodup_append] at hnodup
    exact hnodup.2.2 _ hmem _ (List.mem_singleton_self _) rfl
  · exact List.nodup_iff_count_le_one.mp hnodup _
  · exact List.nodup_iff_count_le_one.mp hnodup _
  · intro e he htype
    have hdone : s.stage = .done := by
      have hmem := List.mem_map_of_mem (f := Event.type) he
      rw [htypes, htype, hfinished, isDone_iff] at hmem
      exact hmem
    rw [h.logged.finished e he htype, eventTypes, htypes, happlied, recorded_done h hdone, hdone]
    simp [FlowAt.isStart]
  · intro before e after heq htype
    have hmap : eventTypes s = before.map Event.type ++ .faultApplied :: after.map Event.type := by
      rw [eventTypes, heq, List.map_append, List.map_cons, htype]
    have hmem : .faultApplied ∈ s.types decided := by
      rw [← htypes]
      show .faultApplied ∈ eventTypes s
      rw [hmap]
      simp
    obtain ⟨rest, hrest, hnot⟩ := types_applied h decided hdecided hmem
    -- there is one application, so what stands before it is known
    have hsplit : before.map Event.type = [.flowStarted, .decision, .faultReached] := by
      have hboth : before.map Event.type ++ .faultApplied :: after.map Event.type =
          [.flowStarted, .decision, .faultReached] ++ .faultApplied :: rest :=
        hmap.symm.trans (htypes.trans hrest)
      exact ((List.append_cons_inj_of_notMem (by decide) hnot).mp hboth.symm).1.symm
    have hset := applied_of_recorded (happlied.mp hmem).2
    have hselected := (h.sound.justified (Or.inl hset)).2
    have hfind (t : EventType) (ht : t ∈ before.map Event.type) : ∃ d ∈ before, d.type = t := by
      simpa using ht
    refine ⟨?_, hfind .faultReached (by rw [hsplit]; decide)⟩
    obtain ⟨d, hd, hdtype⟩ := hfind .decision (by rw [hsplit]; decide)
    refine ⟨d, hd, hdtype, ?_⟩
    rw [h.logged.decision d (by rw [heq]; exact List.mem_append_left _ hd) hdtype]
    exact hselected
  · exact completes h

end Law

end Faultline.HTTP
