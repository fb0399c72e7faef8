import Mathlib

/-! Programs with a state and early exits. `EStateM` keeps the state of a program that
fails, as a function with an error result and side effects does. The lemmas run a
program one statement at a time. -/
namespace Faultline
variable {ε σ τ α β : Type}

theorem bind_apply (m : EStateM ε σ α) (f : α → EStateM ε σ β) (s : σ) :
    (m >>= f) s = match m s with
      | .ok a s' => f a s'
      | .error e s' => .error e s' := rfl

theorem bind_ok {m : EStateM ε σ α} {s s' : σ} {a : α} (h : m s = .ok a s')
    (f : α → EStateM ε σ β) : (m >>= f) s = f a s' := by
  rw [bind_apply, h]

theorem bind_eq_returned {m : EStateM ε σ α} {f : α → EStateM ε σ β} {s t : σ} {b : β} :
    (m >>= f) s = .ok b t ↔ ∃ a s', m s = .ok a s' ∧ f a s' = .ok b t := by
  rw [bind_apply]
  constructor
  · intro h
    cases hm : m s with
    | ok a s' =>
      rw [hm] at h
      exact ⟨a, s', rfl, h⟩
    | error e s' =>
      rw [hm] at h
      cases h
  · rintro ⟨a, s', hm, hf⟩
    rw [hm]
    exact hf

@[simp] theorem pure_apply (a : α) (s : σ) : (pure a : EStateM ε σ α) s = .ok a s := rfl

@[simp] theorem throw_apply (e : ε) (s : σ) : (throw e : EStateM ε σ α) s = .error e s := rfl

@[simp] theorem get_apply (s : σ) : (get : EStateM ε σ σ) s = .ok s s := rfl

@[simp] theorem modify_apply (f : σ → σ) (s : σ) :
    (modify f : EStateM ε σ PUnit) s = .ok ⟨⟩ (f s) := rfl

def finalState : EStateM.Result ε σ α → σ
  | .ok _ s => s
  | .error _ s => s

@[simp] theorem finalState_ok (a : α) (s : σ) : finalState (.ok a s : EStateM.Result ε σ α) = s := rfl

@[simp] theorem finalState_error (e : ε) (s : σ) :
    finalState (.error e s : EStateM.Result ε σ α) = s := rfl

def stopError : EStateM.Result ε σ α → Option ε
  | .ok _ _ => none
  | .error e _ => some e

@[simp] theorem stopError_ok (a : α) (s : σ) : stopError (.ok a s : EStateM.Result ε σ α) = none := rfl

def captureError (m : EStateM ε σ α) : EStateM ε σ (Except ε α) := fun s =>
  match m s with
  | .ok a s' => .ok (.ok a) s'
  | .error e s' => .ok (.error e) s'

def zoom (view : σ → τ) (put : σ → τ → σ) (m : EStateM ε τ α) : EStateM ε σ α := fun s =>
  match m (view s) with
  | .ok a t => .ok a (put s t)
  | .error e t => .error e (put s t)

section Keeps
variable {R : σ → σ → Prop}

/-- Whether a program returns or fails, it relates the state before to the state after. -/
def Keeps (R : σ → σ → Prop) (m : EStateM ε σ α) : Prop := ∀ s, R s (finalState (m s))

theorem Keeps.bind [IsTrans σ R] {m : EStateM ε σ α} {f : α → EStateM ε σ β} (hm : Keeps R m)
    (hf : ∀ a, Keeps R (f a)) : Keeps R (m >>= f) := by
  intro s
  have h := hm s
  rw [bind_apply]
  cases hs : m s with
  | ok a s' =>
    rw [hs] at h
    exact IsTrans.trans _ _ _ h (hf a s')
  | error e s' =>
    rw [hs] at h
    exact h

theorem Keeps.pure [Std.Refl R] (a : α) : Keeps R (pure a : EStateM ε σ α) := fun s => refl s

theorem Keeps.throw [Std.Refl R] (e : ε) : Keeps R (throw e : EStateM ε σ α) := fun s => refl s

theorem Keeps.get [Std.Refl R] : Keeps R (get : EStateM ε σ σ) := fun s => refl s

theorem Keeps.modify {f : σ → σ} (hf : ∀ s, R s (f s)) : Keeps R (modify f : EStateM ε σ PUnit) := hf

theorem Keeps.captureError {m : EStateM ε σ α} (hm : Keeps R m) : Keeps R (captureError m) := by
  intro s
  have h := hm s
  unfold Faultline.captureError
  cases hs : m s with
  | ok a s' =>
    rw [hs] at h
    exact h
  | error e s' =>
    rw [hs] at h
    exact h

theorem Keeps.ite {c : Prop} [Decidable c] {m n : EStateM ε σ α} (hm : Keeps R m) (hn : Keeps R n) :
    Keeps R (if c then m else n) := by
  split_ifs
  · exact hm
  · exact hn

end Keeps

end Faultline
