import Faultline.Recorder

/-! The events of flows in the order in which an adapter records them: one flow after
another, of which the last may still be open. -/
namespace Faultline

def flowCourses : List (List EventType) := [[], [.decision], [.decision, .faultApplied]]

/-- The events of a flow that has not finished: the last of them, and what has happened
since the start. -/
structure OpenFlow (info : Info) (course : List EventType) (last : Event) (flow : List Event) : Prop where
  types : flow.map (·.type) = .flowStarted :: course
  same : ∀ x ∈ flow, x.info = info ∧ x.flowID = last.flowID
  last_info : last.info = info
  applied : last.applied = true ↔ .faultApplied ∈ course

structure Flow (info : Info) (flow : List Event) : Prop where
  types : ∃ course ∈ flowCourses, flow.map (·.type) = .flowStarted :: (course ++ [.flowFinished])
  same : ∃ id, ∀ x ∈ flow, x.info = info ∧ x.flowID = id
  applied : ∀ x ∈ flow, x.type = .flowFinished →
    (x.applied = true ↔ ∃ y ∈ flow, y.type = .faultApplied)

/-- Finished flows one after another, one for each of the given infos. -/
inductive Trace : List Info → List Event → Prop
  | nil : Trace [] []
  | flow {infos events info flow} (before : Trace infos events) (last : Flow info flow) :
      Trace (infos ++ [info]) (events ++ flow)

theorem openFlow_started (info : Info) (flowID proxyID protocol : String) (now : ℕ) :
    OpenFlow info [] (.started info flowID proxyID protocol now)
      [.started info flowID proxyID protocol now] where
  types := rfl
  same := by simp [Event.started]
  last_info := rfl
  applied := by simp [Event.started]

theorem OpenFlow.record {info : Info} {course : List EventType} {last : Event} {flow : List Event}
    (h : OpenFlow info course last flow) (x : Event) (hinfo : x.info = last.info)
    (hid : x.flowID = last.flowID) (happlied : x.applied = true ↔ .faultApplied ∈ course ++ [x.type]) :
    OpenFlow info (course ++ [x.type]) x (flow ++ [x]) where
  types := by simp [h.types]
  same := by
    intro y hy
    rw [List.mem_append, List.mem_singleton] at hy
    rcases hy with hy | rfl
    · rw [hid]
      exact h.same y hy
    · exact ⟨hinfo.trans h.last_info, rfl⟩
  last_info := hinfo.trans h.last_info
  applied := happlied

theorem OpenFlow.finish {info : Info} {course : List EventType} {last : Event} {flow : List Event}
    (h : OpenFlow info course last flow) (hcourse : course ∈ flowCourses) (x : Event)
    (hinfo : x.info = last.info) (hid : x.flowID = last.flowID) (htype : x.type = .flowFinished)
    (happlied : x.applied = last.applied) : Flow info (flow ++ [x]) where
  types := ⟨course, hcourse, by simp [h.types, htype]⟩
  same := by
    refine ⟨last.flowID, fun y hy => ?_⟩
    rw [List.mem_append, List.mem_singleton] at hy
    rcases hy with hy | rfl
    · exact h.same y hy
    · exact ⟨hinfo.trans h.last_info, hid⟩
  applied := by
    -- the finishing event is the last one, as no course contains its type
    have hopen : ∀ y ∈ flow, y.type ≠ .flowFinished := by
      intro y hy hfin
      have hmem : y.type ∈ flow.map (·.type) := List.mem_map_of_mem hy
      rw [h.types, hfin] at hmem
      simp only [flowCourses, List.mem_cons, List.not_mem_nil, or_false] at hcourse
      rcases hcourse with rfl | rfl | rfl <;> simp at hmem
    have hfault : (∃ y ∈ flow ++ [x], y.type = .faultApplied) ↔ .faultApplied ∈ course := by
      have : EventType.faultApplied ∈ course ↔ .faultApplied ∈ flow.map (·.type) := by simp [h.types]
      rw [this]
      simp [htype]
    intro y hy hfin
    rw [List.mem_append, List.mem_singleton] at hy
    rcases hy with hy | rfl
    · exact (hopen y hy hfin).elim
    · rw [happlied, h.applied, hfault]

end Faultline
