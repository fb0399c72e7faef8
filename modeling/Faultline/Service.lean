import Faultline.Engine

/-! The control service: it owns the active revision and publishes new ones. A
revision is shared by pointer, so revisions live in a heap and a snapshot holds an
index into it. Counters of revisions and changes do not reach the end of their 64
bits and are natural numbers. -/
namespace Faultline

structure Info where
  runID : String
  revision : ℕ
  enabled : Bool
  controlSequence : ℕ
  appliedAt : ℕ
  stateChangedAt : ℕ
  deriving DecidableEq

structure Revision where
  document : Document
  engine : Engine
  deriving DecidableEq

structure Snapshot where
  info : Info
  revision : ℕ
  deriving DecidableEq

/-- The service. Its active snapshot always points to a revision of the heap. -/
structure Service where
  heap : List Revision
  active : Snapshot
  pinned : active.revision < heap.length
  deriving DecidableEq

structure Result where
  changed : Bool
  info : Info
  deriving DecidableEq

inductive ServiceError where
  | invalid
  | unmanaged
  | noRevision
  | conflict
  | restart
  | engine
  | persist (message : String)
  deriving DecidableEq

def ServiceError.message : ServiceError → String
  | .invalid => "control: validated config is required"
  | .unmanaged => "control: managed config requires revision precondition"
  | .noRevision => "control: revision and persistence required"
  | .conflict => "control: config revision conflict"
  | .restart => "control: proxies, listeners, upstreams, TLS and runtime limits require restart"
  | .engine => "engine: validated config is required"
  | .persist message => message

/-- `New`, with the run ID that `rand.Text` returned and the time. -/
def Service.new (lib : Library) (document : Option Document) (runID : String) (now : ℕ) :
    Except ServiceError Service :=
  match document, Engine.new lib document with
  | some d, some e => .ok ⟨[⟨d, e⟩], ⟨⟨runID, 1, false, 0, now, now⟩, 0⟩, Nat.one_pos⟩
  | _, _ => .error .engine

def Service.withInfo (s : Service) (info : Info) : Service :=
  { s with active := { s.active with info := info } }

/-- `NewManaged` with a persist function. -/
def Service.newManaged (lib : Library) (document : Option Document) (revision : ℕ) (runID : String)
    (now : ℕ) : Except ServiceError Service :=
  match Service.new lib document runID now with
  | .error e => .error e
  | .ok s =>
    if revision = 0 then .error .noRevision
    else .ok (s.withInfo { s.active.info with revision := revision })

def Service.acquire (s : Service) : Snapshot := s.active

def Service.setEnabled (s : Service) (enabled : Bool) (now : ℕ) : Result × Service :=
  let info := s.active.info
  if info.enabled = enabled then (⟨false, info⟩, s)
  else
    let next := { info with
      enabled := enabled
      controlSequence := info.controlSequence + 1
      stateChangedAt := now }
    (⟨true, next⟩, s.withInfo next)

def Service.document (s : Service) : Document := (s.heap.get ⟨s.active.revision, s.pinned⟩).document

/-- The persist function of a managed service, on a state of its own: nil, or a
function that returns an error message or nothing. -/
abbrev Persist (σ : Type) := Option (Document → Result → σ → Option String × σ)

def callPersist {σ : Type} (persist : Persist σ) (document : Document) (result : Result) (st : σ) :
    Option String × σ :=
  match persist with
  | none => (none, st)
  | some f => f document result st

def nextInfo (info : Info) (now : ℕ) : Info :=
  { info with
    revision := info.revision + 1
    controlSequence := info.controlSequence + 1
    appliedAt := now }

def Service.push (s : Service) (document : Document) (engine : Engine) (info : Info) : Service :=
  ⟨s.heap ++ [⟨document, engine⟩], ⟨info, s.heap.length⟩, by simp⟩

/-- `apply` from the equality test on: persist, then publish. -/
def Service.publish {σ : Type} (lib : Library) (persist : Persist σ) (s : Service) (st : σ)
    (document : Document) (now : ℕ) : Except ServiceError Result × Service × σ :=
  let info := s.active.info
  if documentEqual (some s.document) (some document) then
    match callPersist persist document ⟨false, info⟩ st with
    | (some e, st) => (.error (.persist e), s, st)
    | (none, st) => (.ok ⟨false, info⟩, s, st)
  else
    match Engine.new lib (some document) with
    | none => (.error .engine, s, st)
    | some evaluator =>
      let result : Result := ⟨true, nextInfo info now⟩
      match callPersist persist document result st with
      | (some e, st) => (.error (.persist e), s, st)
      | (none, st) => (.ok result, s.push document evaluator result.info, st)

def Service.apply {σ : Type} (lib : Library) (persist : Persist σ) (s : Service) (st : σ)
    (document : Option Document) (expected : Option ℕ) (now : ℕ) :
    Except ServiceError Result × Service × σ :=
  match document with
  | none => (.error .invalid, s, st)
  | some d =>
    if d.valid = false then (.error .invalid, s, st)
    else if expected.isSome ∧ expected ≠ some s.active.info.revision then (.error .conflict, s, st)
    else if restartCompatible (some s.document) document = false then (.error .restart, s, st)
    else s.publish lib persist st d now

/-- What an apply did, by how far it got: it was refused, its persist call failed,
it changed nothing, or it published a revision. -/
inductive ApplyCase {σ : Type} (lib : Library) (persist : Persist σ) (s : Service) (st : σ)
    (document : Option Document) (expected : Option ℕ) (now : ℕ) :
    Except ServiceError Result × Service × σ → Prop where
  | refused (e : ServiceError) : ApplyCase lib persist s st document expected now (.error e, s, st)
  | failed (d : Document) (result : Result) (e : String) (st' : σ) (hd : document = some d)
      (hvalid : d.valid = true) (hresult : result = ⟨false, s.active.info⟩ ∧
          documentEqual (some s.document) (some d) = true ∨
        result = ⟨true, nextInfo s.active.info now⟩ ∧
          documentEqual (some s.document) (some d) = false)
      (hexpected : expected = none ∨ expected = some s.active.info.revision)
      (hp : callPersist persist d result st = (some e, st')) :
      ApplyCase lib persist s st document expected now (.error (.persist e), s, st')
  | unchanged (d : Document) (st' : σ) (hd : document = some d) (hvalid : d.valid = true)
      (heq : documentEqual (some s.document) (some d) = true)
      (hp : callPersist persist d ⟨false, s.active.info⟩ st = (none, st')) :
      ApplyCase lib persist s st document expected now (.ok ⟨false, s.active.info⟩, s, st')
  | changed (d : Document) (engine : Engine) (st' : σ) (hd : document = some d)
      (hvalid : d.valid = true) (hengine : Engine.new lib (some d) = some engine)
      (hne : documentEqual (some s.document) (some d) = false)
      (hexpected : expected = none ∨ expected = some s.active.info.revision)
      (hp : callPersist persist d ⟨true, nextInfo s.active.info now⟩ st = (none, st')) :
      ApplyCase lib persist s st document expected now
        (.ok ⟨true, nextInfo s.active.info now⟩, s.push d engine (nextInfo s.active.info now), st')

theorem apply_cases {σ : Type} (lib : Library) (persist : Persist σ) (s : Service) (st : σ)
    (document : Option Document) (expected : Option ℕ) (now : ℕ) :
    ApplyCase lib persist s st document expected now
      (s.apply lib persist st document expected now) := by
  unfold Service.apply
  cases document with
  | none => exact .refused _
  | some d =>
    simp only
    by_cases hvalid : d.valid = false
    · rw [if_pos hvalid]
      exact .refused _
    rw [if_neg hvalid]
    rw [Bool.not_eq_false] at hvalid
    by_cases hconflict : expected.isSome ∧ expected ≠ some s.active.info.revision
    · rw [if_pos hconflict]
      exact .refused _
    rw [if_neg hconflict]
    have hexpected : expected = none ∨ expected = some s.active.info.revision := by
      cases expected with
      | none => exact Or.inl rfl
      | some n => exact Or.inr (by simpa using hconflict)
    by_cases hrestart : restartCompatible (some s.document) (some d) = false
    · rw [if_pos hrestart]
      exact .refused _
    rw [if_neg hrestart]
    unfold Service.publish
    by_cases heq : documentEqual (some s.document) (some d) = true
    · simp only [heq, if_true]
      split
      · rename_i e st' hp
        exact .failed d _ e st' rfl hvalid (Or.inl ⟨rfl, heq⟩) hexpected hp
      · rename_i st' hp
        exact .unchanged d st' rfl hvalid heq hp
    · rw [Bool.not_eq_true] at heq
      simp only [heq, Bool.false_eq_true, if_false]
      split
      · exact .refused _
      · rename_i engine hengine
        split
        · rename_i e st' hp
          exact .failed d _ e st' rfl hvalid (Or.inr ⟨rfl, heq⟩) hexpected hp
        · rename_i st' hp
          exact .changed d engine st' rfl hvalid hengine heq hexpected hp

/-- `Apply`: only a service without persistence takes it. -/
def Service.applyUnmanaged {σ : Type} (lib : Library) (persist : Persist σ) (s : Service) (st : σ)
    (document : Option Document) (now : ℕ) : Except ServiceError Result × Service × σ :=
  if persist.isSome then (.error .unmanaged, s, st) else s.apply lib persist st document none now

def Service.applyRevision {σ : Type} (lib : Library) (persist : Persist σ) (s : Service) (st : σ)
    (document : Option Document) (expected : ℕ) (now : ℕ) :
    Except ServiceError Result × Service × σ :=
  s.apply lib persist st document (some expected) now

/-- `Snapshot.Decide`, which works on the engine of the snapshot's own revision. -/
def Snapshot.decide (lib : Library) (snapshot : Snapshot) (heap : List Revision) (proxyID : String)
    (metadata : Metadata) : Except String Decision × List Revision :=
  match heap[snapshot.revision]? with
  | none => (.error unknownProxy, heap)
  | some r =>
    let (d, engine) := r.engine.decide lib proxyID metadata snapshot.info.enabled
    (d, heap.set snapshot.revision { r with engine := engine })

@[simp] theorem length_decide (lib : Library) (snapshot : Snapshot) (heap : List Revision)
    (proxyID : String) (metadata : Metadata) :
    (snapshot.decide lib heap proxyID metadata).2.length = heap.length := by
  unfold Snapshot.decide
  split <;> simp

/-- A decision of some flow on its snapshot, beside which the service goes on. -/
def Service.decide (lib : Library) (s : Service) (snapshot : Snapshot) (proxyID : String)
    (metadata : Metadata) : Except String Decision × Service :=
  ((snapshot.decide lib s.heap proxyID metadata).1,
    ⟨(snapshot.decide lib s.heap proxyID metadata).2, s.active, by simp [s.pinned]⟩)

end Faultline
