import Faultline.Text

/-! Byte streams with partial reads and writes, the loops that read or write a given number of bytes
all the same, and messages that are sent over such streams one after the other. -/
namespace Faultline

/-! Writing. -/

/-- The bytes that a writer has taken, and how many of the bytes offered in a call it takes: `none`
stands for an error. -/
structure Writer where
  written : Bytes
  respond : ℕ → Bytes → Option ℕ
  calls : ℕ

/-- Each call takes a part of the bytes that is not empty. -/
def Writer.Accepting (w : Writer) : Prop :=
  ∀ k b, b ≠ [] → ∃ n, w.respond k b = some n ∧ 0 < n ∧ n ≤ b.length

def Writer.write (w : Writer) (b : Bytes) : Option ℕ × Writer :=
  match w.respond w.calls b with
  | none => (none, { w with calls := w.calls + 1 })
  | some n => (some n, { w with written := w.written ++ b.take n, calls := w.calls + 1 })

/-- Writes until nothing is left; an error or an empty write ends the loop. -/
def writeLoop : ℕ → Bytes → Writer → Bool × Writer
  | 0, b, w => (b.isEmpty, w)
  | fuel+1, b, w =>
    if b = [] then (true, w)
    else match w.write b with
      | (none, w) => (false, w)
      | (some n, w) => if n = 0 then (false, w) else writeLoop fuel (b.drop n) w

def writeAll (b : Bytes) (w : Writer) : Bool × Writer := writeLoop b.length b w

theorem writeLoop_spec (fuel : ℕ) (b : Bytes) (w : Writer) (hw : w.Accepting) (hfuel : b.length ≤ fuel) :
    (writeLoop fuel b w).1 = true ∧ (writeLoop fuel b w).2.written = w.written ++ b ∧
      (writeLoop fuel b w).2.respond = w.respond := by
  induction fuel generalizing b w with
  | zero =>
    have hnil : b = [] := List.length_eq_zero_iff.mp (Nat.le_zero.mp hfuel)
    subst hnil
    exact ⟨rfl, (List.append_nil _).symm, rfl⟩
  | succ fuel ih =>
    by_cases hb : b = []
    · rw [writeLoop, if_pos hb, hb]
      exact ⟨rfl, (List.append_nil _).symm, rfl⟩
    · obtain ⟨n, hn, hpos, hle⟩ := hw w.calls b hb
      have hstep : writeLoop (fuel+1) b w = writeLoop fuel (b.drop n)
          { w with written := w.written ++ b.take n, calls := w.calls + 1 } := by
        rw [writeLoop, if_neg hb, Writer.write, hn]
        exact if_neg (Nat.ne_of_gt hpos)
      rw [hstep]
      obtain ⟨hok, hwritten, hrespond⟩ := ih (b.drop n)
        { w with written := w.written ++ b.take n, calls := w.calls + 1 } hw (by
          rw [List.length_drop]
          omega)
      refine ⟨hok, ?_, hrespond⟩
      rw [hwritten, List.append_assoc, List.take_append_drop]

/-! Reading. -/

/-- The bytes that a reader will still return, and at most how many of them a call returns. -/
structure Reader where
  bytes : Bytes
  sizes : ℕ → ℕ
  calls : ℕ

def Reader.read (r : Reader) (want : ℕ) : Bytes × Reader :=
  let n := min want (max 1 (r.sizes r.calls))
  (r.bytes.take n, { r with bytes := r.bytes.drop n, calls := r.calls + 1 })

/-- Reads until the wanted bytes are there; the end of the stream is an error. -/
def readLoop : ℕ → ℕ → Reader → Option Bytes × Reader
  | 0, want, r => (if want = 0 then some [] else none, r)
  | fuel+1, want, r =>
    if want = 0 then (some [], r)
    else
      let (b, r) := r.read want
      if b = [] then (none, r)
      else
        let (rest, r) := readLoop fuel (want - b.length) r
        (rest.map (b ++ ·), r)

/-- `io.ReadFull`: at most one step for each byte. -/
def readFull (want : ℕ) (r : Reader) : Option Bytes × Reader := readLoop want want r

theorem readLoop_spec (fuel want : ℕ) (r : Reader) (hfuel : want ≤ fuel) :
    (want ≤ r.bytes.length → (readLoop fuel want r).1 = some (r.bytes.take want) ∧
      (readLoop fuel want r).2.bytes = r.bytes.drop want) ∧
    (r.bytes.length < want → (readLoop fuel want r).1 = none) := by
  induction fuel generalizing want r with
  | zero =>
    obtain rfl : want = 0 := Nat.le_zero.mp hfuel
    exact ⟨fun _ => ⟨rfl, rfl⟩, fun h => absurd h (Nat.not_lt_zero _)⟩
  | succ fuel ih =>
    by_cases hwant : want = 0
    · subst hwant
      exact ⟨fun _ => ⟨rfl, rfl⟩, fun h => absurd h (Nat.not_lt_zero _)⟩
    obtain ⟨n, hn⟩ : ∃ n, n = min want (max 1 (r.sizes r.calls)) := ⟨_, rfl⟩
    have hread : r.read want =
        (r.bytes.take n, { r with bytes := r.bytes.drop n, calls := r.calls + 1 }) := by
      rw [Reader.read, hn]
    rw [readLoop, if_neg hwant, hread]
    by_cases hend : r.bytes.take n = []
    · -- nothing comes any more
      have hempty : r.bytes.length = 0 := by
        rcases List.take_eq_nil_iff.mp hend with hzero | hnil
        · omega
        · rw [hnil]
          rfl
      simp only [if_pos hend]
      exact ⟨fun h => absurd h (by omega), fun _ => trivial⟩
    · have hlen : (r.bytes.take n).length = min n r.bytes.length := List.length_take
      have hpos := List.length_pos_of_ne_nil hend
      have hrest := ih (want - (r.bytes.take n).length)
        { r with bytes := r.bytes.drop n, calls := r.calls + 1 } (by omega)
      simp only [if_neg hend]
      obtain ⟨hfull, hshort⟩ := hrest
      rw [List.length_drop] at hfull hshort
      constructor
      · intro hle
        obtain ⟨hbytes, hleft⟩ := hfull (by omega)
        have hn' : (r.bytes.take n).length = n := by omega
        rw [hbytes, hleft, hn', List.drop_drop]
        refine ⟨?_, by congr 1; omega⟩
        rw [Option.map_some, ← List.take_add]
        congr 2
        omega
      · intro hlt
        rw [hshort (by omega)]
        rfl

theorem readFull_eq (want : ℕ) (r : Reader) (h : want ≤ r.bytes.length) :
    (readFull want r).1 = some (r.bytes.take want) ∧ (readFull want r).2.bytes = r.bytes.drop want :=
  (readLoop_spec want want r le_rfl).1 h

theorem readFull_short (want : ℕ) (r : Reader) (h : r.bytes.length < want) : (readFull want r).1 = none :=
  (readLoop_spec want want r le_rfl).2 h

def andThen {α β : Type} (o : Option α × Reader) (f : α → Reader → Option β × Reader) : Option β × Reader :=
  match o.1 with
  | none => (none, o.2)
  | some a => f a o.2

theorem andThen_none {α β : Type} (o : Option α × Reader) (f : α → Reader → Option β × Reader)
    (h : o.1 = none) : (andThen o f).1 = none := by
  rw [andThen, h]

theorem andThen_some {α β : Type} (o : Option α × Reader) (f : α → Reader → Option β × Reader) (a : α)
    (h : o.1 = some a) : andThen o f = f a o.2 := by
  rw [andThen, h]

/-! Messages. -/

/-- How messages are sent and received. The text of a message says where it ends. -/
structure Wire (α : Type) where
  send : α → Writer → Bool × Writer
  receive : Reader → Option α × Reader
  bytes : α → Bytes
  nonempty : ∀ a, bytes a ≠ []
  sends : ∀ a w, w.Accepting → (send a w).1 = true ∧ (send a w).2.written = w.written ++ bytes a ∧
    (send a w).2.respond = w.respond
  receives : ∀ a r rest, r.bytes = bytes a ++ rest → (receive r).1 = some a ∧ (receive r).2.bytes = rest
  inverse : ∀ r a, (receive r).1 = some a → r.bytes = bytes a ++ (receive r).2.bytes

namespace Wire
variable {α : Type} (x : Wire α)

def sendMany : List α → Writer → Bool × Writer
  | [], w => (true, w)
  | a :: l, w =>
    let (ok, w) := x.send a w
    if ok then sendMany l w else (false, w)

def receiveMany : ℕ → Reader → List α × Reader
  | 0, r => ([], r)
  | n+1, r =>
    match (x.receive r).1 with
    | none => ([], (x.receive r).2)
    | some a =>
      let (l, r) := receiveMany n (x.receive r).2
      (a :: l, r)

theorem sendMany_spec (l : List α) (w : Writer) (hw : w.Accepting) : (x.sendMany l w).1 = true ∧
    (x.sendMany l w).2.written = w.written ++ l.flatMap x.bytes := by
  induction l generalizing w with
  | nil => exact ⟨rfl, (List.append_nil _).symm⟩
  | cons a l ih =>
    obtain ⟨hok, hwritten, hrespond⟩ := x.sends a w hw
    have hnext : (x.send a w).2.Accepting := by
      unfold Writer.Accepting
      rw [hrespond]
      exact hw
    obtain ⟨hall, hbytes⟩ := ih (x.send a w).2 hnext
    have hstep : x.sendMany (a :: l) w = x.sendMany l (x.send a w).2 := by
      rw [sendMany]
      exact if_pos hok
    rw [hstep]
    refine ⟨hall, ?_⟩
    rw [hbytes, hwritten, List.append_assoc, List.flatMap_cons]

theorem receive_nil (r : Reader) (hr : r.bytes = []) : (x.receive r).1 = none := by
  cases h : (x.receive r).1 with
  | none => rfl
  | some a =>
    have hbytes := x.inverse r a h
    rw [hr] at hbytes
    exact absurd (List.append_eq_nil_iff.mp hbytes.symm).1 (x.nonempty a)

theorem receiveMany_spec (l : List α) (r : Reader) (hr : r.bytes = l.flatMap x.bytes) :
    (x.receiveMany l.length r).1 = l ∧ (x.receiveMany l.length r).2.bytes = [] := by
  induction l generalizing r with
  | nil => exact ⟨rfl, hr⟩
  | cons a l ih =>
    rw [List.flatMap_cons] at hr
    obtain ⟨hfirst, hrest⟩ := x.receives a r (l.flatMap x.bytes) hr
    obtain ⟨hl, hend⟩ := ih (x.receive r).2 hrest
    have hstep : x.receiveMany (a :: l).length r = (a :: (x.receiveMany l.length (x.receive r).2).1,
        (x.receiveMany l.length (x.receive r).2).2) := by
      rw [List.length_cons, receiveMany, hfirst]
    rw [hstep, hl, hend]
    exact ⟨rfl, rfl⟩

/-- What messages do over streams that take and give any part of them at a time. -/
structure RoundTrip : Prop where
  /-- A list of messages arrives as it was sent, and then the stream is at its end. -/
  list : ∀ l w sizes, w.Accepting → w.written = [] →
    (x.sendMany l w).1 = true ∧
    ∀ r, r = (⟨(x.sendMany l w).2.written, sizes, 0⟩ : Reader) →
      (x.receiveMany l.length r).1 = l ∧ (x.receiveMany l.length r).2.bytes = [] ∧
      (x.receive (x.receiveMany l.length r).2).1 = none
  /-- A message that is received is sent again as the bytes that it was read from. -/
  again : ∀ r a w, (x.receive r).1 = some a → w.Accepting → w.written = [] →
    (x.send a w).1 = true ∧ r.bytes = (x.send a w).2.written ++ (x.receive r).2.bytes

theorem roundTrip : x.RoundTrip := by
  refine ⟨?_, ?_⟩
  swap
  · intro r a w ha hw hnew
    obtain ⟨hok, hwritten, -⟩ := x.sends a w hw
    rw [hwritten, hnew, List.nil_append]
    exact ⟨hok, x.inverse r a ha⟩
  intro l w sizes hw hnew
  obtain ⟨hok, hwritten⟩ := x.sendMany_spec l w hw
  rw [hnew, List.nil_append] at hwritten
  refine ⟨hok, ?_⟩
  rintro r rfl
  obtain ⟨hl, hend⟩ := x.receiveMany_spec l ⟨(x.sendMany l w).2.written, sizes, 0⟩ hwritten
  exact ⟨hl, hend, x.receive_nil _ hend⟩

end Wire

end Faultline
