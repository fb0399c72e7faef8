import Faultline.ConfigValid
import Faultline.Machine
import Faultline.Service

/-! Runs of the control service: any order of the critical sections of its callers
and of the flows that decide on their snapshots. -/
namespace Faultline

/-- One call. Times are what the clock returns, `persisted` what the persist
function of a managed service returns. -/
inductive ServiceOp where
  | acquire
  | setEnabled (enabled : Bool) (now : ℕ)
  | apply (document : Option Document) (now : ℕ)
  | applyRevision (document : Option Document) (expected now : ℕ) (persisted : Option String)
  | decide (snapshot : Snapshot) (proxyID : String) (metadata : Metadata)

inductive ServiceOutcome where
  | snapshot (s : Snapshot)
  | result (r : Except ServiceError Result)
  | decision (d : Except String Decision)

def ServiceOutcome.changed : ServiceOutcome → Bool
  | .result (.ok r) => r.changed
  | _ => false

def ServiceOp.isApply : ServiceOp → Bool
  | .apply .. => true
  | .applyRevision .. => true
  | _ => false

def answering (managed : Bool) (persisted : Option String) : Persist Unit :=
  if managed then some (fun _ _ st => (persisted, st)) else none

def serviceStep (lib : Library) (managed : Bool) (s : Service) : ServiceOp → ServiceOutcome × Service
  | .acquire => (.snapshot s.acquire, s)
  | .setEnabled enabled now => (.result (.ok (s.setEnabled enabled now).1), (s.setEnabled enabled now).2)
  | .apply document now =>
    let r := s.applyUnmanaged lib (answering managed none) () document now
    (.result r.1, r.2.1)
  | .applyRevision document expected now persisted =>
    let r := s.applyRevision lib (answering managed persisted) () document expected now
    (.result r.1, r.2.1)
  | .decide snapshot proxyID metadata =>
    let r := s.decide lib snapshot proxyID metadata
    (.decision r.1, r.2)

def runService (lib : Library) (managed : Bool) : Service → List ServiceOp →
    List ServiceOutcome × Service := run (serviceStep lib managed)

inductive StepCase (lib : Library) (s : Service) (op : ServiceOp) : ServiceOutcome → Service → Prop where
  | quiet (o : ServiceOutcome) (h : o.changed = false)
      (hs : ∀ snapshot, o = .snapshot snapshot → op = .acquire ∧ snapshot = s.active) :
      StepCase lib s op o s
  | decided (snapshot : Snapshot) (proxyID : String) (metadata : Metadata)
      (hop : op = .decide snapshot proxyID metadata) (d : Except String Decision) :
      StepCase lib s op (.decision d) (s.decide lib snapshot proxyID metadata).2
  | toggled (enabled : Bool) (now : ℕ) (hop : op = .setEnabled enabled now)
      (hne : s.active.info.enabled ≠ enabled) (next : Info)
      (hnext : next = { s.active.info with
        enabled := enabled
        controlSequence := s.active.info.controlSequence + 1
        stateChangedAt := now }) :
      StepCase lib s op (.result (.ok ⟨true, next⟩)) (s.withInfo next)
  | published (d : Document) (engine : Engine) (now : ℕ) (hop : op.isApply = true)
      (hexpected : ∀ document expected now' persisted,
        op = .applyRevision document expected now' persisted → expected = s.active.info.revision) :
      StepCase lib s op (.result (.ok ⟨true, nextInfo s.active.info now⟩))
        (s.push d engine (nextInfo s.active.info now))

theorem apply_step (lib : Library) (persist : Persist Unit) (s : Service) (op : ServiceOp)
    (document : Option Document) (expected : Option ℕ) (now : ℕ) (hop : op.isApply = true)
    (hexpected : ∀ document' expected' now' persisted,
      op = .applyRevision document' expected' now' persisted → expected = some expected') :
    StepCase lib s op (.result (s.apply lib persist () document expected now).1)
      (s.apply lib persist () document expected now).2.1 := by
  have hcase := apply_cases lib persist s () document expected now
  generalize s.apply lib persist () document expected now = out at hcase ⊢
  cases hcase with
  | refused e => exact .quiet _ rfl (fun _ h => by cases h)
  | failed d result e st' hd hvalid hresult hexp hp => exact .quiet _ rfl (fun _ h => by cases h)
  | unchanged d st' hd hvalid heq hp => exact .quiet _ rfl (fun _ h => by cases h)
  | changed d engine st' hd hvalid hengine hne hexp hp =>
    refine .published d engine now hop (fun document' expected' now' persisted hop' => ?_)
    rw [hexpected document' expected' now' persisted hop'] at hexp
    rcases hexp with hexp | hexp
    · cases hexp
    · exact Option.some.inj hexp

theorem step_cases (lib : Library) (managed : Bool) (s : Service) (op : ServiceOp) :
    StepCase lib s op (serviceStep lib managed s op).1 (serviceStep lib managed s op).2 := by
  cases op with
  | acquire =>
    refine .quiet _ rfl (fun snapshot h => ⟨rfl, ?_⟩)
    cases h
    rfl
  | setEnabled enabled now =>
    simp only [serviceStep, Service.setEnabled]
    by_cases h : s.active.info.enabled = enabled
    · simp only [h, if_true]
      exact .quiet _ rfl (fun _ h => by cases h)
    · simp only [h, if_false]
      exact .toggled enabled now rfl h _ rfl
  | apply document now =>
    simp only [serviceStep, Service.applyUnmanaged]
    split_ifs
    · exact .quiet _ rfl (fun _ h => by cases h)
    · exact apply_step lib _ s _ document none now rfl (fun _ _ _ _ h => by cases h)
  | applyRevision document expected now persisted =>
    refine apply_step lib _ s _ document (some expected) now rfl (fun _ _ _ _ h => ?_)
    cases h
    rfl
  | decide snapshot proxyID metadata => exact .decided snapshot proxyID metadata rfl _

theorem getElem?_decide (lib : Library) (snapshot : Snapshot) (heap : List Revision)
    (proxyID : String) (metadata : Metadata) (i : ℕ) :
    ((snapshot.decide lib heap proxyID metadata).2[i]?).map (·.document) =
      (heap[i]?).map (·.document) := by
  unfold Snapshot.decide
  cases h : heap[snapshot.revision]? with
  | none => rfl
  | some r =>
    simp only [List.getElem?_set]
    split_ifs with hi hlt
    · rw [← hi, h]
      rfl
    · exact absurd (hi ▸ (List.getElem?_eq_some_iff.mp h).1) hlt
    · rfl

def HeapKept (s s' : Service) : Prop :=
  s.heap.length ≤ s'.heap.length ∧
    ∀ i < s.heap.length, (s'.heap[i]?).map (·.document) = (s.heap[i]?).map (·.document)

theorem heapKept_refl (s : Service) : HeapKept s s := ⟨le_rfl, fun _ _ => rfl⟩

theorem heapKept_trans (a b c : Service) (h : HeapKept a b) (h' : HeapKept b c) : HeapKept a c :=
  ⟨h.1.trans h'.1, fun i hi => (h'.2 i (lt_of_lt_of_le hi h.1)).trans (h.2 i hi)⟩

theorem heapKept_step (lib : Library) (managed : Bool) (s : Service) (op : ServiceOp) :
    HeapKept s (serviceStep lib managed s op).2 := by
  have hcase := step_cases lib managed s op
  generalize serviceStep lib managed s op = out at hcase ⊢
  obtain ⟨o, s'⟩ := out
  cases hcase with
  | quiet => exact heapKept_refl _
  | decided snapshot proxyID metadata hop d =>
    exact ⟨by simp, fun i _ => getElem?_decide lib snapshot s.heap proxyID metadata i⟩
  | toggled enabled now hop hne next hnext => exact heapKept_refl s
  | published d engine now hop hexpected =>
    refine ⟨by simp, fun i hi => ?_⟩
    simp only [List.getElem?_append_left hi]

/-- The revision number is the initial one plus the index into the heap, and the
active revision is the newest. -/
def Numbered (first : ℕ) (s : Service) : Prop :=
  s.active.info.revision = first + s.active.revision ∧ s.active.revision + 1 = s.heap.length

theorem numbered_step (lib : Library) (managed : Bool) (first : ℕ) (s : Service) (op : ServiceOp)
    (h : Numbered first s) : Numbered first (serviceStep lib managed s op).2 := by
  have hcase := step_cases lib managed s op
  generalize serviceStep lib managed s op = out at hcase ⊢
  obtain ⟨o, s'⟩ := out
  obtain ⟨hrev, hlen⟩ := h
  cases hcase with
  | quiet => exact ⟨hrev, hlen⟩
  | decided snapshot proxyID metadata hop d => exact ⟨hrev, by simp [hlen]⟩
  | toggled enabled now hop hne next hnext =>
    subst hnext
    exact ⟨hrev, hlen⟩
  | published d engine now hop hexpected =>
    refine ⟨?_, by simp⟩
    simp only [nextInfo]
    omega

theorem counters_step (lib : Library) (managed : Bool) (s : Service) (op : ServiceOp) :
    let out := serviceStep lib managed s op
    out.2.active.info.revision =
        s.active.info.revision + (if op.isApply ∧ out.1.changed then 1 else 0) ∧
      out.2.active.info.controlSequence =
        s.active.info.controlSequence + (if out.1.changed then 1 else 0) ∧
      out.2.active.info.runID = s.active.info.runID ∧
      (∀ enabled now, op = .setEnabled enabled now → out.2.active.info.enabled = enabled) ∧
      ((∀ enabled now, op ≠ .setEnabled enabled now) →
        out.2.active.info.enabled = s.active.info.enabled) := by
  have hcase := step_cases lib managed s op
  have hset (enabled : Bool) (now : ℕ) (hop : op = .setEnabled enabled now) :
      (serviceStep lib managed s op).2.active.info.enabled = enabled := by
    subst hop
    simp only [serviceStep, Service.setEnabled]
    split_ifs with h
    · exact h
    · rfl
  generalize serviceStep lib managed s op = out at hcase hset ⊢
  obtain ⟨o, s'⟩ := out
  cases hcase with
  | quiet o h hs => exact ⟨by simp [h], by simp [h], rfl, hset, fun _ => rfl⟩
  | decided snapshot proxyID metadata hop d =>
    exact ⟨by simp [hop, ServiceOp.isApply], rfl, rfl, hset, fun _ => rfl⟩
  | toggled enabled now hop hne next hnext =>
    subst hnext
    refine ⟨by simp [hop, ServiceOp.isApply], rfl, rfl, hset, fun hnot => ?_⟩
    exact absurd hop (hnot enabled now)
  | published d engine now hop hexpected =>
    exact ⟨by simp [ServiceOutcome.changed, nextInfo, hop], rfl, rfl, hset, fun _ => rfl⟩

def Started (lib : Library) (managed : Bool) (s : Service) : Prop :=
  if managed then ∃ document revision runID now,
    Service.newManaged lib document revision runID now = .ok s
  else ∃ document runID now, Service.new lib document runID now = .ok s

theorem new_started (lib : Library) (document : Option Document) (runID : String) (now : ℕ)
    (s : Service) (h : Service.new lib document runID now = .ok s) :
    s.heap.length = 1 ∧ s.active.revision = 0 ∧ s.active.info.controlSequence = 0 := by
  unfold Service.new at h
  split at h
  · cases h
    exact ⟨rfl, rfl, rfl⟩
  · cases h

theorem started_first (lib : Library) (managed : Bool) (s : Service) (h : Started lib managed s) :
    s.heap.length = 1 ∧ s.active.revision = 0 ∧ s.active.info.controlSequence = 0 := by
  unfold Started at h
  split_ifs at h
  · obtain ⟨document, revision, runID, now, h⟩ := h
    unfold Service.newManaged at h
    split at h
    · cases h
    · rename_i s' hs'
      split_ifs at h
      cases h
      exact new_started lib document runID now s' hs'
  · obtain ⟨document, runID, now, h⟩ := h
    exact new_started lib document runID now s h

structure ServiceRunLaw (lib : Library) (managed : Bool) (first : Service) (ops : List ServiceOp) :
    Prop where
  /-- The revision counts the changed applies. -/
  revision : (runService lib managed first ops).2.active.info.revision =
    first.active.info.revision + (ops.zip (runService lib managed first ops).1).countP
      (fun x => x.1.isApply && x.2.changed)
  /-- The control sequence counts the changed results. -/
  control : (runService lib managed first ops).2.active.info.controlSequence =
    (runService lib managed first ops).1.countP ServiceOutcome.changed
  /-- A further call moves the revision by one if it is a changed apply, and only then. -/
  revision_step : ∀ op, (serviceStep lib managed (runService lib managed first ops).2 op).2.active.info.revision =
    (runService lib managed first ops).2.active.info.revision +
      (if op.isApply ∧ (serviceStep lib managed (runService lib managed first ops).2 op).1.changed
        then 1 else 0)
  /-- Only `SetEnabled` changes the injection state. -/
  enabled_step : ∀ op, (∀ enabled now, op ≠ .setEnabled enabled now) →
    (serviceStep lib managed (runService lib managed first ops).2 op).2.active.info.enabled =
      (runService lib managed first ops).2.active.info.enabled
  /-- A call that fails or changes nothing leaves the whole service as it was: its
  info, its documents and the counters of all engines. -/
  unchanged_step : ∀ op, (∀ snapshot proxyID metadata, op ≠ .decide snapshot proxyID metadata) →
    (serviceStep lib managed (runService lib managed first ops).2 op).1.changed = false →
    (serviceStep lib managed (runService lib managed first ops).2 op).2 =
      (runService lib managed first ops).2
  /-- Snapshots of one run and revision point to the same revision, that is, to the
  same document and the same engine. -/
  shared : ∀ (i j : ℕ) a b, (runService lib managed first ops).1[i]? = some (.snapshot a) →
    (runService lib managed first ops).1[j]? = some (.snapshot b) → a.info.runID = b.info.runID →
    a.info.revision = b.info.revision → a.revision = b.revision
  /-- The document of a snapshot is there and stays the same. -/
  pinned : ∀ (i : ℕ) a, (runService lib managed first ops).1[i]? = some (.snapshot a) →
    ∃ document, ∀ n, i ≤ n →
      ((runService lib managed first (ops.take n)).2.heap[a.revision]?).map (·.document) = some document
  /-- Of the `ApplyRevision` calls with one expected revision at most one changes anything. -/
  no_lost_update : ∀ (i j : ℕ) d d' n t t' e e', i ≠ j →
    ops[i]? = some (.applyRevision d n t e) → ops[j]? = some (.applyRevision d' n t' e') →
    ¬ (((runService lib managed first ops).1[i]?).any ServiceOutcome.changed = true ∧
      ((runService lib managed first ops).1[j]?).any ServiceOutcome.changed = true)

theorem runService_snoc (lib : Library) (managed : Bool) (s : Service) (ops : List ServiceOp)
    (op : ServiceOp) : runService lib managed s (ops ++ [op]) =
      ((runService lib managed s ops).1 ++ [(serviceStep lib managed (runService lib managed s ops).2 op).1],
        (serviceStep lib managed (runService lib managed s ops).2 op).2) := run_snoc _ _ _ _

theorem run_revision (lib : Library) (managed : Bool) (s : Service) (ops : List ServiceOp) :
    (runService lib managed s ops).2.active.info.revision =
      s.active.info.revision + (ops.zip (runService lib managed s ops).1).countP
        (fun x => x.1.isApply && x.2.changed) := by
  induction ops using List.reverseRecOn with
  | nil => rfl
  | append_singleton ops op ih =>
    have hstep := (counters_step lib managed (runService lib managed s ops).2 op).1
    have hlen : ops.length = (runService lib managed s ops).1.length := (length_run _ s ops).symm
    rw [runService_snoc]
    simp only [hstep, ih, List.zip_append hlen, List.countP_append, List.zip_cons_cons,
      List.zip_nil_right, List.countP_singleton, Bool.and_eq_true]
    omega

theorem run_control (lib : Library) (managed : Bool) (s : Service) (ops : List ServiceOp) :
    (runService lib managed s ops).2.active.info.controlSequence =
      s.active.info.controlSequence +
        (runService lib managed s ops).1.countP ServiceOutcome.changed := by
  induction ops using List.reverseRecOn with
  | nil => rfl
  | append_singleton ops op ih =>
    have hstep := (counters_step lib managed (runService lib managed s ops).2 op).2.1
    rw [runService_snoc, List.countP_append]
    simp only [hstep, ih, List.countP_singleton]
    omega

theorem outcome_at (lib : Library) (managed : Bool) (s : Service) (ops : List ServiceOp) (i : ℕ)
    (o : ServiceOutcome) (h : (runService lib managed s ops).1[i]? = some o) :
    ∃ op, ops[i]? = some op ∧
      (serviceStep lib managed (runService lib managed s (ops.take i)).2 op).1 = o := by
  have hlt : i < ops.length := by
    have := (List.getElem?_eq_some_iff.mp h).1
    rwa [runService, length_run] at this
  have hop : ops[i]? = some ops[i] := List.getElem?_eq_getElem hlt
  refine ⟨ops[i], hop, ?_⟩
  have hget := run_getElem? (serviceStep lib managed) s ops i _ hop
  exact Option.some.inj (hget.symm.trans h)

theorem snapshot_at (lib : Library) (managed : Bool) (s : Service) (ops : List ServiceOp) (i : ℕ)
    (a : Snapshot) (h : (runService lib managed s ops).1[i]? = some (.snapshot a)) :
    a = (runService lib managed s (ops.take i)).2.active := by
  obtain ⟨op, -, hstep⟩ := outcome_at lib managed s ops i _ h
  have hcase := step_cases lib managed (runService lib managed s (ops.take i)).2 op
  generalize serviceStep lib managed (runService lib managed s (ops.take i)).2 op = out at hcase hstep
  obtain ⟨o, s'⟩ := out
  cases hcase with
  | quiet o h hs => exact (hs a hstep).2
  | decided snapshot proxyID metadata hop d => cases hstep
  | toggled enabled now hop hne next hnext => cases hstep
  | published d engine now hop hexpected => cases hstep

theorem changed_applyRevision (lib : Library) (managed : Bool) (s : Service) (d : Option Document)
    (n t : ℕ) (e : Option String)
    (h : (serviceStep lib managed s (.applyRevision d n t e)).1.changed = true) :
    s.active.info.revision = n ∧
      (serviceStep lib managed s (.applyRevision d n t e)).2.active.info.revision = n + 1 := by
  have hcase := step_cases lib managed s (.applyRevision d n t e)
  generalize serviceStep lib managed s (.applyRevision d n t e) = out at hcase h ⊢
  obtain ⟨o, s'⟩ := out
  cases hcase with
  | quiet o hq hs =>
    rw [hq] at h
    cases h
  | decided snapshot proxyID metadata hop d => cases hop
  | toggled enabled now hop hne next hnext => cases hop
  | published d engine now hop hexpected =>
    have hn := hexpected _ _ _ _ rfl
    exact ⟨hn.symm, by simp [nextInfo, hn]⟩

end Faultline
