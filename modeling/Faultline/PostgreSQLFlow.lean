import Faultline.Flows
import Faultline.PostgreSQLCommit

/-! The flows that a PostgreSQL session records: one for each command cycle, finished on
every path on which the session leaves the cycle. -/
namespace Faultline.PostgreSQL

def Quiet (infos : List Info) (s : Session) : Prop := s.active = false ∧ Trace infos s.events

def Busy (infos : List Info) (course : List EventType) (s : Session) : Prop :=
  s.active = true ∧ s.snap.isSome = true ∧ ∃ done info events flow, infos = done ++ [info] ∧
    s.events = events ++ flow ∧ Trace done events ∧ OpenFlow info course s.event flow

def Traced (infos : List Info) (s : Session) : Prop :=
  Quiet infos s ∨ s.closed = false ∧
    ∃ course ∈ flowCourses, Busy infos course s ∧ (s.decided = false → course = [])

section Steps
variable {infos : List Info} {course : List EventType} {e : Endpoint} {s : Session} {f : Frame}
  {m : Moment}

theorem Busy.record (h : Busy infos course s) (x : Event) (hinfo : x.info = s.event.info)
    (hid : x.flowID = s.event.flowID)
    (happlied : x.applied = true ↔ .faultApplied ∈ course ++ [x.type]) :
    Busy infos (course ++ [x.type]) (s.record x) := by
  obtain ⟨hactive, hsnap, done, info, events, flow, hinfos, hevents, htrace, hopen⟩ := h
  refine ⟨hactive, hsnap, done, info, events, flow ++ [x], hinfos, ?_, htrace,
    hopen.record x hinfo hid happlied⟩
  change s.events ++ [x] = _
  rw [hevents, List.append_assoc]

theorem Busy.finish (h : Busy infos course s) (hcourse : course ∈ flowCourses) (outcome : String) :
    Quiet infos (s.finish outcome m) := by
  obtain ⟨hactive, -, done, info, events, flow, rfl, hevents, htrace, hopen⟩ := h
  refine ⟨finish_active .., ?_⟩
  unfold Session.finish
  simp only [hactive, Bool.not_true, Bool.false_eq_true, if_false, Session.record, hevents,
    List.append_assoc]
  exact .flow htrace (hopen.finish hcourse _ rfl rfl rfl rfl)

theorem Quiet.finish (h : Quiet infos s) (outcome : String) : Quiet infos (s.finish outcome m) := by
  have hsame : s.finish outcome m = s := by simp [Session.finish, h.1]
  rwa [hsame]

theorem Traced.finish (h : Traced infos s) (outcome : String) : Quiet infos (s.finish outcome m) := by
  rcases h with h | ⟨-, course, hcourse, h, -⟩
  · exact h.finish outcome
  · exact h.finish hcourse outcome

theorem Traced.close (h : Traced infos s) : Traced infos (s.close m) := .inl (h.finish _)

theorem Traced.refuse (h : Traced infos s) : Traced infos (s.refuse m) := Traced.close h

theorem Traced.toClient (h : Traced infos s) : Traced infos (s.toClient f m) := by
  unfold Session.toClient
  split_ifs
  · exact h
  · exact Traced.close h

theorem Traced.toUpstream (h : Traced infos s) : Traced infos (s.toUpstream f m) := by
  unfold Session.toUpstream
  split_ifs
  · exact h
  · exact Traced.close h

theorem Quiet.startCycle (h : Quiet infos s) (hopen : s.closed = false) :
    Traced (infos ++ [s.service.acquire.info]) (s.startCycle e m) := by
  refine .inr ⟨hopen, [], by simp [flowCourses], ⟨rfl, rfl, infos, _, s.events, _, rfl, rfl, h.2, ?_⟩,
    fun _ => rfl⟩
  exact openFlow_started ..

theorem Traced.cycleStep (h : Traced infos s) : Traced infos (cycleStep s f m) := by
  unfold PostgreSQL.cycleStep
  split_ifs
  · exact h.refuse
  · exact Traced.toUpstream h

def startedBy (s : Session) (f : Frame) : List Info :=
  if f.kind ∈ frontKinds ∧ s.awaiting = false ∧ s.active = false then [s.service.acquire.info] else []

theorem Traced.frontStep (h : Traced infos s) (hopen : s.closed = false) :
    Traced (infos ++ startedBy s f) (frontStep e s f m) := by
  unfold PostgreSQL.frontStep startedBy
  by_cases hquit : f.kind = 'X'.toUInt8
  · have hnot : ¬ (f.kind ∈ frontKinds ∧ s.awaiting = false ∧ s.active = false) := by
      rw [hquit]
      exact fun hh => absurd hh.1 (by decide +kernel)
    rw [if_pos hquit, if_neg hnot, List.append_nil]
    exact h.close
  rw [if_neg hquit]
  by_cases hrefused : f.kind ∉ frontKinds ∨ s.awaiting = true
  · have hnot : ¬ (f.kind ∈ frontKinds ∧ s.awaiting = false ∧ s.active = false) := by
      rintro ⟨h1, h2, -⟩
      rcases hrefused with hr | hr
      · exact hr h1
      · rw [h2] at hr
        cases hr
    rw [if_pos hrefused, if_neg hnot, List.append_nil]
    exact h.refuse
  rw [if_neg hrefused]
  by_cases hactive : s.active = true
  · rw [if_pos hactive, if_neg (by simp [hactive]), List.append_nil]
    exact h.cycleStep
  · push Not at hrefused
    rw [if_neg hactive, if_pos ⟨hrefused.1, by simpa using hrefused.2, by simpa using hactive⟩]
    rcases h with h | ⟨-, _, -, ⟨hactive', -⟩, -⟩
    · exact (h.startCycle hopen).cycleStep
    · exact (hactive hactive').elim

theorem Busy.decide (h : Busy infos [] s) : Busy infos [.decision] (s.decide e).2 := by
  obtain ⟨snap, hsnap⟩ := Option.isSome_iff_exists.mp h.2.1
  have hfresh : s.event.applied = false := by
    obtain ⟨-, -, _, _, _, _, -, -, -, hopen⟩ := h
    simpa using hopen.applied
  rw [decide_eq hsnap]
  let r := s.service.decide e.lib snap e.proxyID ⟨[], [], [], []⟩
  have hcount : Busy infos [] { s with service := r.2, transaction := false, decided := true } := h
  exact hcount.record { s.event.withDecision (decisionOf r.1) with commitConfirmed := true }
    rfl rfl (by simp [Event.withDecision, hfresh])

theorem Traced.commitStep (h : Traced infos s) (hopen : s.closed = false) (hcommit : s.Commits f) :
    Traced infos (commitStep e s f m).2 := by
  obtain ⟨-, -, -, hactive, hdecided⟩ := hcommit
  rcases h with h | ⟨-, course, -, h, hcourse⟩
  · rw [h.1] at hactive
    cases hactive
  obtain rfl := hcourse hdecided
  obtain ⟨snap, hsnap⟩ := Option.isSome_iff_exists.mp h.2.1
  have hopen' : (s.decide e).2.closed = false := by
    simpa [Session.decide, hsnap, Session.record] using hopen
  have hdec : (s.decide e).2.decided = true := (decide_some hsnap).2.2.2.2.1
  have hd : Busy infos [.decision] (s.decide e).2 := h.decide
  have hchosen : Traced infos (s.decide e).2 :=
    .inr ⟨hopen', _, by simp [flowCourses], hd, fun hh => by simp [hdec] at hh⟩
  have happlied : Traced infos ((s.decide e).2.record (s.decide e).2.event.asApplied) := by
    refine .inr ⟨hopen', [.decision, .faultApplied], by simp [flowCourses], ?_, fun hh => ?_⟩
    · exact hd.record _ rfl rfl (by simp [Event.asApplied])
    · rw [show ((s.decide e).2.record (s.decide e).2.event.asApplied).decided = true from hdec] at hh
      cases hh
  unfold PostgreSQL.commitStep
  simp only
  split_ifs
  · split
    · exact happlied.toClient
    · exact .inl (happlied.finish _)
    · exact happlied.close
  · exact hchosen.toClient

theorem Traced.readyStep (h : Traced infos s) : Traced infos (readyStep s f m) := by
  unfold PostgreSQL.readyStep
  split_ifs
  · exact h.refuse
  · refine .inl (Traced.finish ?_ _)
    exact h
  · exact Traced.close h

theorem Traced.backStep (h : Traced infos s) (hopen : s.closed = false) :
    Traced infos (backStep e s f m).2 := by
  rw [backStep_eq]
  split_ifs with hknown hcommit hready
  · exact h.commitStep hopen hcommit
  · exact h.readyStep
  · exact Traced.toClient h
  · exact h.refuse

end Steps

section Run
variable (e : Endpoint) (s : Session) (inputs : List Input)

def Input.IsCommand : Input → Prop
  | .front f _ => f.kind ∈ frontKinds
  | _ => False

/-- The input starts a command cycle: the open session receives a command outside of any. -/
def StartsCycle (k : ℕ) : Prop :=
  (before e s inputs k).closed = false ∧ At Input.IsCommand inputs k ∧ ¬ InCycle inputs k

open Classical in
noncomputable def cycleStarts : List ℕ :=
  (List.range inputs.length).filter (fun k => StartsCycle e s inputs k)

noncomputable def cycleInfos : List Info :=
  (cycleStarts e s inputs).map (fun k => (before e s inputs k).service.acquire.info)

variable {e s inputs}

theorem startsCycle_append (i : Input) {k : ℕ} (hk : k < inputs.length) :
    StartsCycle e s (inputs ++ [i]) k ↔ StartsCycle e s inputs k := by
  unfold StartsCycle
  rw [before_snoc i hk.le, at_append _ _ _ _ hk, inCycle_append _ _ _ hk.le]

theorem startsCycle_snoc (i : Input) : StartsCycle e s (inputs ++ [i]) inputs.length ↔
    (exchange e s inputs).2.closed = false ∧ i.IsCommand ∧ ¬ InCycle inputs inputs.length := by
  unfold StartsCycle
  rw [before_snoc i le_rfl, at_snoc, inCycle_append _ _ _ le_rfl, before, List.take_length]

open Classical in
theorem cycleInfos_snoc (i : Input) : cycleInfos e s (inputs ++ [i]) = cycleInfos e s inputs ++
    if (exchange e s inputs).2.closed = false ∧ i.IsCommand ∧ ¬ InCycle inputs inputs.length
    then [(exchange e s inputs).2.service.acquire.info] else [] := by
  have hold : (List.range inputs.length).filter (fun k => StartsCycle e s (inputs ++ [i]) k) =
      cycleStarts e s inputs := by
    refine List.filter_congr (fun k hk => ?_)
    rw [decide_eq_decide]
    exact startsCycle_append i (List.mem_range.mp hk)
  have hmap : (cycleStarts e s inputs).map (fun k => (before e s (inputs ++ [i]) k).service.acquire.info) =
      cycleInfos e s inputs := by
    refine List.map_congr_left (fun k hk => ?_)
    rw [before_snoc i (List.mem_range.mp (List.mem_filter.mp hk).1).le]
  have hlast : before e s (inputs ++ [i]) inputs.length = (exchange e s inputs).2 := by
    rw [before_snoc i le_rfl, before, List.take_length]
  rw [cycleInfos, cycleStarts, List.length_append, List.length_singleton, List.range_succ,
    List.filter_append, hold, List.map_append, hmap, List.filter_singleton]
  by_cases hstart : StartsCycle e s (inputs ++ [i]) inputs.length
  · rw [if_pos ((startsCycle_snoc i).mp hstart)]
    simp [hstart, hlast]
  · rw [if_neg (fun hh => hstart ((startsCycle_snoc i).mpr hh))]
    simp [hstart]

open Classical in
/-- The events of a session are the flows of its command cycles. -/
theorem traced_exchange (service : Service) (client upstream : Sink) (inputs : List Input) :
    Traced (cycleInfos e (.start service client upstream) inputs)
      (exchange e (.start service client upstream) inputs).2 := by
  induction inputs using List.reverseRecOn with
  | nil => exact .inl ⟨rfl, .nil⟩
  | append_singleton inputs i ih =>
    rw [cycleInfos_snoc, exchange_snoc]
    generalize hs : (exchange e (.start service client upstream) inputs).2 = s at ih ⊢
    cases i with
    | control op =>
      rw [if_neg (fun hh => hh.2.1), List.append_nil]
      exact ih
    | done m =>
      rw [if_neg (fun hh => hh.2.1), List.append_nil]
      unfold exchangeStep
      split_ifs
      · exact ih
      · exact ih.close
    | back f m =>
      rw [if_neg (fun hh => hh.2.1), List.append_nil]
      unfold exchangeStep
      split_ifs with hc
      · exact ih
      · exact ih.backStep (Bool.eq_false_iff.mpr hc)
    | front f m =>
      simp only [exchangeStep]
      by_cases hc : s.closed = true
      · simp only [hc, Bool.true_eq_false, false_and, if_false, List.append_nil, if_true]
        exact ih
      · have hopen : s.closed = false := Bool.eq_false_iff.mpr hc
        have hflags := follows service client upstream inputs (by rw [hs]; exact hopen)
        have hcycle := hflags.cycle
        have hidle := hflags.idle
        rw [hs] at hcycle hidle
        -- outside of a cycle no answer is awaited, so that the command is accepted
        have hsame : (if s.closed = false ∧ (Input.front f m).IsCommand ∧ ¬ InCycle inputs inputs.length
            then [s.service.acquire.info] else []) = startedBy s f := by
          unfold startedBy
          refine if_congr ?_ rfl rfl
          rw [← hcycle, Bool.not_eq_true]
          exact ⟨fun hh => ⟨hh.2.1, hidle hh.2.2, hh.2.2⟩, fun hh => ⟨hopen, hh.1, hh.2.2⟩⟩
        rw [hsame, if_neg hc]
        exact ih.frontStep hopen

end Run

structure FlowLaw (e : Endpoint) (s : Session) (inputs : List Input) : Prop where
  /-- A decision is taken on a `CommandComplete` of `COMMIT`, in a cycle, with an explicit
  transaction and no earlier decision in the cycle, and on no other input. -/
  decided : ∀ k, Decides (exchange e s inputs).1 k ↔ (before e s inputs k).closed = false ∧
    At (Input.IsBackText 'C' "COMMIT\x00") inputs k ∧ InCycle inputs k ∧
    Observed inputs (exchange e s inputs).1 k ∧ ¬ DecidedInCycle inputs (exchange e s inputs).1 k
  once : ∀ j k, j < k → Decides (exchange e s inputs).1 j → Decides (exchange e s inputs).1 k →
    ∃ r, j < r ∧ r < k ∧ Ready inputs r
  /-- With one `CommandComplete` in a cycle every eligible commit is decided. -/
  every : (∀ j k, j < k → At (Input.IsBack 'C') inputs j → At (Input.IsBack 'C') inputs k →
      InCycle inputs j → ∃ r, j < r ∧ r < k ∧ Ready inputs r) →
    ∀ k, (before e s inputs k).closed = false → At (Input.IsBackText 'C' "COMMIT\x00") inputs k →
      InCycle inputs k → Observed inputs (exchange e s inputs).1 k → Decides (exchange e s inputs).1 k
  /-- The snapshot of a decision was acquired at the first frame of the cycle. -/
  snapshot : ∀ k d, (exchange e s inputs).1[k]? = some (some d) → ∃ j, CycleFrom inputs j k ∧
    d = decisionOf ((before e s inputs k).service.decide e.lib (before e s inputs j).service.acquire
      e.proxyID ⟨[], [], [], []⟩).1
  /-- Each cycle has one flow, in the order of the cycles. A flow is open at most in the
  last cycle, while the session is in it. -/
  flows : Traced (cycleInfos e s inputs) (exchange e s inputs).2

theorem commit_flow_law (e : Endpoint) (service : Service) (client upstream : Sink)
    (inputs : List Input) : FlowLaw e (.start service client upstream) inputs where
  decided := decides_iff service client upstream inputs
  once := fun _ _ => decides_once service client upstream inputs
  every := decides_every service client upstream inputs
  snapshot := fun _ _ => decides_snapshot service client upstream inputs
  flows := traced_exchange service client upstream inputs

end Faultline.PostgreSQL
