import Faultline.ConfigYaml
import Faultline.DurableFile
import Faultline.Service

/-! The managed store: one file with the configuration, its revision and the audit log, replaced as
a whole by every save. -/
namespace Faultline
namespace Managed

structure Audit where
  time : ℕ
  actor : String
  operation : String
  revision : ℕ
  outcome : String
  deriving DecidableEq

/-- The contents of `state.json`. `LastApply` is none before the first apply. -/
structure State where
  version : ℕ
  config : Bytes
  revision : ℕ
  lastApply : Option Result
  audit : List Audit
  deriving DecidableEq

/-- What a run has done to the file and to the service, in order. -/
inductive Effect where
  | saved (st : State)
  | uncertain (st : State)
  | unsaved
  | enabled (b : Bool)
  | published (revision : ℕ)
  deriving DecidableEq

structure Store where
  dir : String
  state : State
  poisoned : Bool
  file : DurableFile State
  effects : List Effect
  deriving DecidableEq

def Store.note (s : Store) (e : Effect) : Store := { s with effects := s.effects ++ [e] }

def poisonedMessage : String := "storage commit uncertain; restart required"

/-- `save`, with the outcome of its `atomicFile`. -/
def Store.save (out : WriteOutcome) (next : State) (s : Store) : Option String × Store :=
  if s.poisoned then (some poisonedMessage, s)
  else
    let written := { s with file := s.file.replace next out }
    match out with
    | .failed message =>
      (some ("persist managed state: " ++ message), { written with poisoned := false }.note .unsaved)
    | .uncertain message =>
      (some ("persist managed state: " ++ message), { written with poisoned := true }.note (.uncertain next))
    | .saved => (none, { written with state := next }.note (.saved next))

def auditLimit : ℕ := 1000

def appendAudit (st : State) (now : ℕ) (actor operation outcome : String) (revision : ℕ) : State :=
  let audit := st.audit ++ [⟨now, actor, operation, revision, outcome⟩]
  { st with audit := if auditLimit < audit.length then audit.drop (audit.length - auditLimit) else audit }

def Store.audit (now : ℕ) (out : WriteOutcome) (actor operation outcome : String) (revision : ℕ)
    (s : Store) : Option String × Store :=
  s.save out (appendAudit s.state now actor operation outcome revision)

/-- The state that `apply` saves for a document. -/
def applied (y : Yaml) (st : State) (now : ℕ) (actor : String) (document : Document) (result : Result) :
    State :=
  { appendAudit st now actor "apply" "ok" result.info.revision with
    config := encode y document.config
    revision := result.info.revision
    lastApply := some result }

/-- `apply`, the persist function of the managed service. -/
def Store.apply (y : Yaml) (now : ℕ) (out : WriteOutcome) (actor : String) (document : Document)
    (result : Result) (s : Store) : Option String × Store :=
  s.save out (applied y s.state now actor document result)

inductive SaveCase (out : WriteOutcome) (next : State) (s : Store) : Option String × Store → Prop where
  | refused (h : s.poisoned = true) : SaveCase out next s (some poisonedMessage, s)
  | failed (message : String) (h : s.poisoned = false) :
      SaveCase out next s (some ("persist managed state: " ++ message), s.note .unsaved)
  | uncertain (message : String) (h : s.poisoned = false) :
      SaveCase out next s (some ("persist managed state: " ++ message),
        { s with file := s.file.rename next, poisoned := true }.note (.uncertain next))
  | saved (h : s.poisoned = false) : SaveCase out next s
      (none, { s with file := (s.file.rename next).sync, state := next }.note (.saved next))

theorem save_cases (out : WriteOutcome) (next : State) (s : Store) :
    SaveCase out next s (s.save out next) := by
  obtain ⟨dir, state, poisoned, file, effects⟩ := s
  unfold Store.save
  cases poisoned with
  | true => exact .refused rfl
  | false =>
    rw [if_neg Bool.false_ne_true]
    cases out with
    | failed message => exact .failed message rfl
    | uncertain message => exact .uncertain message rfl
    | saved => exact .saved rfl

@[simp] theorem appendAudit_config (st : State) (now : ℕ) (actor operation outcome : String) (revision : ℕ) :
    (appendAudit st now actor operation outcome revision).config = st.config := rfl

@[simp] theorem appendAudit_revision (st : State) (now : ℕ) (actor operation outcome : String)
    (revision : ℕ) : (appendAudit st now actor operation outcome revision).revision = st.revision := rfl

@[simp] theorem appendAudit_version (st : State) (now : ℕ) (actor operation outcome : String)
    (revision : ℕ) : (appendAudit st now actor operation outcome revision).version = st.version := rfl

theorem mem_appendAudit (st : State) (now : ℕ) (actor operation outcome : String) (revision : ℕ) :
    ⟨now, actor, operation, revision, outcome⟩ ∈
      (appendAudit st now actor operation outcome revision).audit := by
  unfold appendAudit
  simp only [List.length_append, List.length_singleton]
  split_ifs with h
  · rw [List.drop_append_of_le_length (by unfold auditLimit at h ⊢; omega)]
    exact List.mem_append_right _ (List.mem_singleton.mpr rfl)
  · exact List.mem_append_right _ (List.mem_singleton.mpr rfl)

end Managed
end Faultline
