import Mathlib

/-! A file that is only replaced as a whole. A rename is atomic for every process; it survives a
loss of power once the directory has been synced. Until then the loss may take it back, and with
it every later one. -/
namespace Faultline

/-- The contents that no loss of power takes back, and what has been renamed over them since,
oldest first. -/
structure DurableFile (α : Type) where
  synced : Option α
  renamed : List α
  deriving DecidableEq

/-- How the replacement of a file ends: before the rename, between the rename and the sync of the
directory, or after both. -/
inductive WriteOutcome where
  | failed (message : String)
  | uncertain (message : String)
  | saved
  deriving DecidableEq

namespace DurableFile
variable {α : Type}

def current (f : DurableFile α) : Option α := f.renamed.getLast?.or f.synced

def rename (f : DurableFile α) (a : α) : DurableFile α := { f with renamed := f.renamed ++ [a] }

def sync (f : DurableFile α) : DurableFile α := ⟨f.current, []⟩

/-- The file after its replacement by `a` was tried. -/
def replace (f : DurableFile α) (a : α) : WriteOutcome → DurableFile α
  | .failed _ => f
  | .uncertain _ => f.rename a
  | .saved => (f.rename a).sync

@[simp] theorem current_rename (f : DurableFile α) (a : α) : (f.rename a).current = some a := by
  simp [rename, current]

@[simp] theorem current_sync (f : DurableFile α) : f.sync.current = f.current := by
  simp [sync, current]

end DurableFile
end Faultline
