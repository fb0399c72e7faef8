import Faultline.Bounds
import Faultline.Machine
import Faultline.Process

/-! Programs that can panic. A panic is not one of the errors of a program: no handler sees it, and
it ends the process. A program whose reads are all in range is a program without panics. -/
namespace Faultline
variable {ε σ τ ι ο α β : Type}

inductive Failure (ε : Type) where
  | panic
  | error (e : ε)

def total (m : EStateM ε σ α) : EStateM (Failure ε) σ α := fun s =>
  match m s with
  | .ok a s' => .ok a s'
  | .error e s' => .error (.error e) s'

def index : Option α → EStateM (Failure ε) σ α
  | none => throw .panic
  | some a => pure a

def captureFailure (m : EStateM (Failure ε) σ α) : EStateM (Failure ε) σ (Except ε α) := fun s =>
  match m s with
  | .ok a s' => .ok (.ok a) s'
  | .error .panic s' => .error .panic s'
  | .error (.error e) s' => .ok (.error e) s'

def settled : EStateM.Result (Failure ε) σ α → Option (EStateM.Result ε σ α)
  | .ok a s => some (.ok a s)
  | .error .panic _ => none
  | .error (.error e) s => some (.error e s)

theorem index_bind {o : Option α} {a : α} (h : o = some a) (f : α → EStateM (Failure ε) σ β) :
    index o >>= f = f a := by
  subst h
  rfl

theorem index_littleEndian (k : ℕ) (b : Bytes) (i : ℕ) (h : i + k ≤ b.length)
    (f : ℕ → EStateM (Failure ε) σ β) :
    (index (sliceFrom b i) >>= fun t => index (littleEndian k t) >>= f) = f (leNat ((b.drop i).take k)) := by
  rw [index_bind (sliceFrom_eq b i (by omega)), index_bind (littleEndian_eq k _ _)]
  rw [List.length_drop]
  omega

theorem total_pure (a : α) : total (pure a : EStateM ε σ α) = pure a := rfl

theorem throw_bind (e : ε) (f : α → EStateM ε σ β) : (throw e : EStateM ε σ α) >>= f = throw e := rfl

theorem total_throw (e : ε) : total (throw e : EStateM ε σ α) = throw (.error e) := rfl

theorem total_bind (m : EStateM ε σ α) (f : α → EStateM ε σ β) :
    total (m >>= f) = total m >>= fun a => total (f a) := by
  funext s
  rw [bind_apply, total, total, bind_apply]
  cases m s with
  | ok a s' => rfl
  | error e s' => rfl

theorem total_ite (c : Prop) [Decidable c] (m n : EStateM ε σ α) :
    total (if c then m else n) = if c then total m else total n := by
  split_ifs <;> rfl

theorem total_captureError (m : EStateM ε σ α) : total (captureError m) = captureFailure (total m) := by
  funext s
  rw [total, captureFailure, captureError, total]
  cases m s with
  | ok a s' => rfl
  | error e s' => rfl

theorem total_zoom (view : σ → τ) (put : σ → τ → σ) (m : EStateM ε τ α) :
    total (zoom view put m) = zoom view put (total m) := by
  funext s
  rw [total, zoom, zoom, total]
  cases m (view s) with
  | ok a t => rfl
  | error e t => rfl

theorem settled_total (m : EStateM ε σ α) (s : σ) : settled (total m s) = some (m s) := by
  rw [total]
  cases m s with
  | ok a s' => rfl
  | error e s' => rfl

def runChecked (step : σ → ι → Option (ο × σ)) : σ → List ι → Option (List ο × σ)
  | s, [] => some ([], s)
  | s, i :: is => do
    let first ← step s i
    let rest ← runChecked step first.2 is
    return (first.1 :: rest.1, rest.2)

theorem runChecked_eq {step : σ → ι → ο × σ} {checked : σ → ι → Option (ο × σ)}
    (h : ∀ s i, checked s i = some (step s i)) (s : σ) (is : List ι) :
    runChecked checked s is = some (run step s is) := by
  induction is generalizing s with
  | nil => rfl
  | cons i is ih =>
    rw [runChecked, h, Option.bind_eq_bind, Option.bind_some, ih]
    rfl

end Faultline
