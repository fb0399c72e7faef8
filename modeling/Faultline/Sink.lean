import Faultline.Text

/-! The writing side of a connection. A write succeeds, or fails after some of its
bytes; nothing is accepted after a failure. -/
namespace Faultline

/-- The bytes written so far and, if a write will fail, how many succeed before it
and how many bytes it still takes. -/
structure Sink where
  written : Bytes
  failing : Option (ℕ × ℕ)
  deriving DecidableEq

def Sink.write (w : Sink) (b : Bytes) : Bool × Sink :=
  match w.failing with
  | none => (true, ⟨w.written ++ b, none⟩)
  | some (0, n) => (false, ⟨w.written ++ b.take n, some (0, 0)⟩)
  | some (k+1, n) => (true, ⟨w.written ++ b, some (k, n)⟩)

theorem Sink.write_written (w : Sink) (b : Bytes) : ∃ c, c <+: b ∧
    (w.write b).2.written = w.written ++ c ∧ ((w.write b).1 = true → c = b) := by
  unfold Sink.write
  split
  · exact ⟨b, List.prefix_rfl, rfl, fun _ => rfl⟩
  · rename_i n hn
    exact ⟨b.take n, List.take_prefix n b, rfl, fun h => by cases h⟩
  · exact ⟨b, List.prefix_rfl, rfl, fun _ => rfl⟩

theorem Sink.write_open (w : Sink) (b : Bytes) (h : w.failing = none) :
    w.write b = (true, ⟨w.written ++ b, none⟩) := by
  simp only [Sink.write, h]

end Faultline
