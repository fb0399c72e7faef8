import Faultline.RecorderQueue

/-! What the recorder keeps over every interleaving: each call of `Record` is in one of the
counters, the queue and the pending counter agree, and a `Close` that returns nil leaves
nothing behind. -/
namespace Faultline.Recording

inductive Moves (capacity : ℕ) (r : Recorder) : Recorder → Prop
  | stay : Moves capacity r r
  | call (e : Event) (h : r.holder = .free) :
    Moves capacity r { r with holder := .record e .count, calls := r.calls ++ [e] }
  | count (e : Event) (h : r.holder = .record e .count) :
    Moves capacity r { r with
      counts := r.counts.count e
      outcomes := countOutcome r.outcomes e
      holder := .record e (if r.closed then .drop else .send) }
  | panic (e : Event) (h : r.holder = .record e .send) (hc : r.queueClosed = true) :
    Moves capacity r { r with panicked := true }
  | queued (e : Event) (h : r.holder = .record e .send) (hroom : r.queue.length < capacity) :
    Moves capacity r { r with
      queue := r.queue ++ [e], accepted := r.accepted ++ [e], holder := .record e .increment }
  | handed (e : Event) (h : r.holder = .record e .send) (hcap : capacity = 0)
      (hw : r.writer = .receive) :
    Moves capacity r { r with
      writer := .got e, accepted := r.accepted ++ [e], holder := .record e .increment }
  | refused (e : Event) (h : r.holder = .record e .send) :
    Moves capacity r { r with holder := .record e .drop }
  | increment (e : Event) (h : r.holder = .record e .increment) :
    Moves capacity r { r with
      counts := { r.counts with pending := r.counts.pending + 1 }, holder := .free }
  | drop (e : Event) (h : r.holder = .record e .drop) :
    Moves capacity r { r with
      counts := { r.counts with dropped := r.counts.dropped + 1 }, holder := .free }
  | taken (e : Event) (rest : List Event) (h : r.writer = .receive) (hq : r.queue = e :: rest) :
    Moves capacity r { r with queue := rest, writer := .got e }
  | drained (h : r.writer = .receive) (hq : r.queue = []) (hc : r.queueClosed = true) :
    Moves capacity r { r with writer := .ended none, done := true }
  | abandoned (e : Event) (h : r.writer = .got e) :
    Moves capacity r { r with writer := .ended (some e), done := true }
  | encoded (e : Event) (failed : Bool) (h : r.writer = .got e) :
    Moves capacity r { r with
      writer := .encoded e failed, output := if failed then r.output else r.output ++ [e] }
  | locked (e : Event) (failed : Bool) (h : r.writer = .encoded e failed)
      (hfree : r.holder = .free) :
    Moves capacity r { r with holder := .writer }
  | failed (e : Event) (h : r.writer = .encoded e true) (hheld : r.holder = .writer) :
    Moves capacity r { r with
      counts := { r.counts with
        pending := r.counts.pending - 1
        dropped := r.counts.dropped + 1
        writeErrors := r.counts.writeErrors + 1 }
      holder := .free
      writer := .receive }
  | wrote (e : Event) (h : r.writer = .encoded e false) (hheld : r.holder = .writer) :
    Moves capacity r { r with
      counts := { r.counts with
        pending := r.counts.pending - 1, written := r.counts.written + 1 }
      holder := .free
      writer := .receive }
  | enter (id : ℕ) (h : r.closers id = .idle) (hfree : r.holder = .free) :
    Moves capacity r { r.closeAt id .entering with holder := .closer id }
  | again (id : ℕ) (h : r.closers id = .entering) (hc : r.closed = true) :
    Moves capacity r { r.closeAt id .waiting with holder := .free }
  | closing (id : ℕ) (h : r.closers id = .entering) (hc : r.closed = false) :
    Moves capacity r { r.closeAt id .closing with closed := true }
  | closedQueue (id : ℕ) (h : r.closers id = .closing) :
    Moves capacity r { r.closeAt id .waiting with queueClosed := true, holder := .free }
  | expired (id : ℕ) (h : r.closers id = .waiting) :
    Moves capacity r { r.closeAt id (.returned false) with aborted := true }
  | finished (id : ℕ) (h : r.closers id = .waiting) (hdone : r.done = true) :
    Moves capacity r (r.closeAt id .counting)
  | returned (id : ℕ) (h : r.closers id = .counting) (hfree : r.holder = .free) :
    Moves capacity r (r.closeAt id (.returned (r.counts.pending = 0)))

variable {capacity : ℕ}

theorem sendStep_moves (r : Recorder) (e : Event) (ready : Bool) (h : r.holder = .record e .send) :
    Moves capacity r (sendStep capacity r e ready) := by
  unfold sendStep
  split_ifs with hclosed hroom hhand
  · exact .panic e h hclosed
  · exact .queued e h hroom
  · exact .handed e h hhand.1 hhand.2.1
  · exact .refused e h

theorem recordStep_moves (r : Recorder) (e : Event) (ready : Bool) (stage : RecordAt)
    (h : r.holder = .record e stage) : Moves capacity r (recordStep capacity r e ready stage) := by
  cases stage with
  | count => exact .count e h
  | send => exact sendStep_moves r e ready h
  | increment => exact .increment e h
  | drop => exact .drop e h

theorem writeStep_moves (r : Recorder) (failed : Bool) : Moves capacity r (writeStep r failed) := by
  unfold writeStep
  split
  · rename_i h
    split
    · exact .taken _ _ h ‹_›
    · split_ifs with hclosed
      · exact .drained h ‹_› hclosed
      · exact .stay
  · rename_i e h
    by_cases habort : r.aborted = true
    · rw [if_pos habort]
      exact .abandoned e h
    · rw [if_neg habort]
      exact .encoded e failed h
  · rename_i e f h
    by_cases hfree : r.holder = .free
    · rw [if_pos hfree]
      exact .locked e f h hfree
    · rw [if_neg hfree]
      by_cases hheld : r.holder = .writer
      · rw [if_pos hheld]
        cases f with
        | true => exact .failed e h hheld
        | false => exact .wrote e h hheld
      · rw [if_neg hheld]
        exact .stay
  · exact .stay

theorem closeStep_moves (r : Recorder) (id : ℕ) (expired : Bool) :
    Moves capacity r (closeStep r id expired) := by
  unfold closeStep
  split
  · split_ifs with hfree
    · exact .enter id ‹_› hfree
    · exact .stay
  · split_ifs with hclosed
    · exact .again id ‹_› hclosed
    · exact .closing id ‹_› (by simpa using hclosed)
  · exact .closedQueue id ‹_›
  · split_ifs with hexp hdone
    · exact .expired id ‹_›
    · exact .finished id ‹_› hdone
    · exact .stay
  · split_ifs with hfree
    · exact .returned id ‹_› hfree
    · exact .stay
  · exact .stay

theorem recorderStep_moves (r : Recorder) (i : RecorderInput) :
    Moves capacity r (recorderStep capacity r i) := by
  cases i with
  | call e =>
    simp only [recorderStep]
    split_ifs with hfree
    · exact .call e hfree
    · exact .stay
  | record ready =>
    simp only [recorderStep]
    split
    · exact recordStep_moves r _ ready _ ‹_›
    · exact .stay
  | write failed => exact writeStep_moves r failed
  | close id expired => exact closeStep_moves r id expired

def WriterAt.hands : WriterAt → List Event
  | .receive => []
  | .got e => [e]
  | .encoded e _ => [e]
  | .ended abandoned => abandoned.toList

def WriterAt.uncounted : WriterAt → List (Event × Bool)
  | .encoded e failed => [(e, failed)]
  | _ => []

def WriterAt.isEnded : WriterAt → Bool
  | .ended _ => true
  | _ => false

def Holder.unsettled : Holder → List Event
  | .record e .count => [e]
  | .record e .send => [e]
  | .record e .drop => [e]
  | _ => []

/-- The increment of `Pending` that a queued event still waits for. -/
def Holder.owed : Holder → ℕ
  | .record _ .increment => 1
  | _ => 0

attribute [simp] WriterAt.hands WriterAt.uncounted WriterAt.isEnded Holder.unsettled Holder.owed

/-- What the mutex and the flags say of a call of `Close` at each of its stages. -/
def CloserAt.Fits (r : Recorder) (id : ℕ) : CloserAt → Prop
  | .idle => r.holder ≠ .closer id
  | .entering => r.holder = .closer id
  | .closing => r.holder = .closer id ∧ r.closed = true ∧ r.queueClosed = false
  | .waiting => r.holder ≠ .closer id ∧ r.closed = true
  | .counting => r.holder ≠ .closer id ∧ r.closed = true ∧ r.writer.isEnded = true
  | .returned _ => r.holder ≠ .closer id ∧ r.closed = true

theorem CloserAt.Fits.frame {r r' : Recorder} {id : ℕ} {c : CloserAt} (h : c.Fits r id)
    (hholder : r'.holder = .closer id ↔ r.holder = .closer id)
    (hclosed : r.closed = true → r'.closed = true)
    (hqueue : r.holder = .closer id → r'.queueClosed = r.queueClosed)
    (hended : r.writer.isEnded = true → r'.writer.isEnded = true) : c.Fits r' id := by
  cases c with
  | idle => exact fun hc => h (hholder.mp hc)
  | entering => exact hholder.mpr h
  | closing => exact ⟨hholder.mpr h.1, hclosed h.2.1, (hqueue h.1).trans h.2.2⟩
  | waiting => exact ⟨fun hc => h.1 (hholder.mp hc), hclosed h.2⟩
  | counting => exact ⟨fun hc => h.1 (hholder.mp hc), hclosed h.2.1, hended h.2.2⟩
  | returned ok => exact ⟨fun hc => h.1 (hholder.mp hc), hclosed h.2⟩

structure Guarded (r : Recorder) : Prop where
  writer : r.holder = .writer → r.writer.uncounted ≠ []
  closers : ∀ id, (r.closers id).Fits r id
  queueClosed : r.queueClosed = true → r.closed = true
  send : ∀ e, r.holder = .record e .send → r.closed = false
  done : r.done = true → r.writer.isEnded = true
  panicked : r.panicked = false

theorem guarded_new : Guarded .new := by
  constructor <;> simp [Recorder.new, CloserAt.Fits]

theorem Guarded.recorded {r : Recorder} (hr : Guarded r) (hold : ∀ id, r.holder ≠ .closer id)
    (counts : Counters) (outcomes : OrdMap String UInt64) (queue calls accepted : List Event)
    (holder : Holder) (hwriter : holder ≠ .writer) (hnew : ∀ id, holder ≠ .closer id)
    (hsend : ∀ e, holder = .record e .send → r.closed = false) :
    Guarded { r with
      counts := counts, outcomes := outcomes, queue := queue, calls := calls
      accepted := accepted, holder := holder } where
  writer h := absurd h hwriter
  closers id := (hr.closers id).frame (iff_of_false (hnew id) (hold id)) (fun h => h)
    (fun _ => rfl) (fun h => h)
  queueClosed := hr.queueClosed
  send := hsend
  done := hr.done
  panicked := hr.panicked

theorem Guarded.wrote {r : Recorder} (hr : Guarded r) (hcounted : r.writer.uncounted = [])
    (hlive : r.writer.isEnded = false) (queue output : List Event) (writer : WriterAt) (done : Bool)
    (hdone : done = true → r.done = true ∨ writer.isEnded = true) :
    Guarded { r with queue := queue, output := output, writer := writer, done := done } where
  writer h := absurd hcounted (hr.writer h)
  closers id := (hr.closers id).frame Iff.rfl (fun h => h) (fun _ => rfl)
    (fun h => nomatch hlive.symm.trans h)
  queueClosed := hr.queueClosed
  send := hr.send
  done h := by
    rcases hdone h with hd | hd
    · rw [hr.done hd] at hlive
      cases hlive
    · exact hd
  panicked := hr.panicked

theorem Guarded.locked {r : Recorder} (hr : Guarded r) (hlive : r.writer.isEnded = false)
    (hold : ∀ id, r.holder ≠ .closer id) (counts : Counters) (holder : Holder) (writer : WriterAt)
    (hwriter : holder = .writer → writer.uncounted ≠ []) (hnew : ∀ id, holder ≠ .closer id)
    (hsend : ∀ e, holder ≠ .record e .send) :
    Guarded { r with counts := counts, holder := holder, writer := writer } where
  writer := hwriter
  closers id := (hr.closers id).frame (iff_of_false (hnew id) (hold id)) (fun h => h)
    (fun _ => rfl) (fun h => nomatch hlive.symm.trans h)
  queueClosed := hr.queueClosed
  send e h := absurd h (hsend e)
  done h := by
    rw [hr.done h] at hlive
    cases hlive
  panicked := hr.panicked

theorem Guarded.closed {r : Recorder} (hr : Guarded r) (id : ℕ) (c : CloserAt) (holder : Holder)
    (closed queueClosed aborted : Bool)
    (hholder : holder = r.holder ∧ closed = r.closed ∨
      holder ≠ .writer ∧ ∀ e, holder ≠ .record e .send)
    (hother : ∀ j, j ≠ id → (holder = .closer j ↔ r.holder = .closer j))
    (hrise : r.closed = true → closed = true) (hqueue : queueClosed = true → closed = true)
    (hkept : queueClosed = r.queueClosed ∨ r.holder = .closer id)
    (hfits : c.Fits { r.closeAt id c with
      holder := holder, closed := closed, queueClosed := queueClosed, aborted := aborted } id) :
    Guarded { r.closeAt id c with
      holder := holder, closed := closed, queueClosed := queueClosed, aborted := aborted } where
  writer h := by
    rcases hholder with ⟨hsame, _⟩ | ⟨hne, _⟩
    · exact hr.writer (hsame.symm.trans h)
    · exact absurd h hne
  closers j := by
    by_cases hj : j = id
    · subst hj
      simpa [Recorder.closeAt] using hfits
    · simp only [Recorder.closeAt, Function.update_of_ne hj]
      refine (hr.closers j).frame (hother j hj) hrise ?_ (fun h => h)
      intro hheld
      rcases hkept with hkept | hkept
      · exact hkept
      · rw [hkept] at hheld
        cases hheld
        exact absurd rfl hj
  queueClosed := hqueue
  send e h := by
    rcases hholder with ⟨hsame, hc⟩ | ⟨_, hne⟩
    · exact hc.trans (hr.send e (hsame.symm.trans h))
    · exact absurd h (hne e)
  done := hr.done
  panicked := hr.panicked

theorem Guarded.held {r : Recorder} (hr : Guarded r) (id : ℕ)
    (h : r.closers id = .entering ∨ r.closers id = .closing) : r.holder = .closer id := by
  have hfits := hr.closers id
  rcases h with h | h
  · rwa [h] at hfits
  · rw [h] at hfits
    exact hfits.1

theorem guarded_step (r r' : Recorder) (hr : Guarded r) (h : Moves capacity r r') : Guarded r' := by
  cases h with
  | stay => exact hr
  | call e h | queued e h | refused e h | increment e h | drop e h =>
    exact hr.recorded (by simp [h]) _ _ _ _ _ _ (by simp) (by simp) (by simp)
  | count e h =>
    refine hr.recorded (by simp [h]) _ _ _ _ _ _ (by simp) (by simp) ?_
    intro a ha
    by_contra hclosed
    simp [hclosed] at ha
  | panic e h hc =>
    have hopen := hr.send e h
    rw [hr.queueClosed hc] at hopen
    cases hopen
  | handed e h hcap hw =>
    have hsent : Guarded { r with accepted := r.accepted ++ [e], holder := .record e .increment } :=
      hr.recorded (by simp [h]) _ _ _ _ _ _ (by simp) (by simp) (by simp)
    exact hsent.wrote (by simp [hw]) (by simp [hw]) _ _ _ _
      Or.inl
  | taken _ _ h | encoded _ _ h => exact hr.wrote (by simp [h]) (by simp [h]) _ _ _ _ Or.inl
  | drained h | abandoned _ h => exact hr.wrote (by simp [h]) (by simp [h]) _ _ _ _ (fun _ => Or.inr rfl)
  | locked e failed h hfree =>
    exact hr.locked (by simp [h]) (by simp [hfree]) _ _ _ (fun _ => by simp [h]) (by simp) (by simp)
  | failed e h hheld | wrote e h hheld =>
    exact hr.locked (by simp [h]) (by simp [hheld]) _ _ _ (by simp) (by simp) (by simp)
  | enter id h hfree =>
    exact hr.closed id _ _ _ _ _ (Or.inr (by simp)) (fun j hj => by simp [hfree, Ne.symm hj])
      (fun h => h) hr.queueClosed (Or.inl rfl) rfl
  | again id h hc =>
    have hheld := hr.held id (Or.inl h)
    exact hr.closed id _ _ _ _ _ (Or.inr (by simp)) (fun j hj => by simp [hheld, Ne.symm hj])
      (fun h => h) hr.queueClosed (Or.inl rfl) ⟨by simp, hc⟩
  | closing id h hc =>
    have hheld := hr.held id (Or.inl h)
    have hopen : r.queueClosed = false := by
      by_contra hq
      simp [hr.queueClosed (by simpa using hq)] at hc
    exact hr.closed id _ _ _ _ _ (Or.inr (by simp [Recorder.closeAt, hheld])) (fun _ _ => Iff.rfl)
      (fun _ => rfl) (fun _ => rfl) (Or.inl rfl) ⟨hheld, rfl, hopen⟩
  | closedQueue id h =>
    have hheld := hr.held id (Or.inr h)
    have hfits := hr.closers id
    rw [h] at hfits
    exact hr.closed id _ _ _ _ _ (Or.inr (by simp)) (fun j hj => by simp [hheld, Ne.symm hj])
      (fun h => h) (fun _ => hfits.2.1) (Or.inr hheld) ⟨by simp, hfits.2.1⟩
  | expired id h =>
    have hfits := hr.closers id
    rw [h] at hfits
    exact hr.closed id _ _ _ _ _ (Or.inl ⟨rfl, rfl⟩) (fun _ _ => Iff.rfl) (fun h => h)
      hr.queueClosed (Or.inl rfl) hfits
  | finished id h hdone =>
    have hfits := hr.closers id
    rw [h] at hfits
    exact hr.closed id _ _ _ _ _ (Or.inl ⟨rfl, rfl⟩) (fun _ _ => Iff.rfl) (fun h => h)
      hr.queueClosed (Or.inl rfl) ⟨hfits.1, hfits.2, hr.done hdone⟩
  | returned id h hfree =>
    have hfits := hr.closers id
    rw [h] at hfits
    exact hr.closed id _ _ _ _ _ (Or.inl ⟨rfl, rfl⟩) (fun _ _ => Iff.rfl) (fun h => h)
      hr.queueClosed (Or.inl rfl) ⟨hfits.1, hfits.2.1⟩

/-- The accounting, with the events the writer has counted, the calls that are through, and
the number of the events that were refused. -/
structure Tallied (capacity : ℕ) (r : Recorder) (counted : List (Event × Bool))
    (settled : List Event) (refused : ℕ) : Prop where
  room : r.queue.length ≤ capacity
  accepted : r.accepted = counted.map Prod.fst ++ r.writer.hands ++ r.queue
  output : r.output = ((counted ++ r.writer.uncounted).filter (fun p => !p.2)).map Prod.fst
  calls : r.calls = settled ++ r.holder.unsettled
  order : r.accepted.Sublist settled
  length : settled.length = r.accepted.length + refused
  written : r.counts.written = .ofNat (counted.countP (fun p => !p.2))
  writeErrors : r.counts.writeErrors = .ofNat (counted.countP (fun p => p.2))
  dropped : r.counts.dropped = .ofNat (refused + counted.countP (fun p => p.2))
  pending : r.counts.pending + .ofNat r.holder.owed =
    .ofNat (r.writer.hands.length + r.queue.length)

theorem tallied_new : Tallied capacity .new [] [] 0 := by
  constructor <;> simp [Recorder.new, Counters.zero]

theorem Counters.count_frame (c : Counters) (e : Event) :
    (c.count e).written = c.written ∧ (c.count e).writeErrors = c.writeErrors ∧
      (c.count e).dropped = c.dropped ∧ (c.count e).pending = c.pending := by
  unfold Counters.count
  cases e.type <;> exact ⟨rfl, rfl, rfl, rfl⟩

theorem ofNat_succ (n : ℕ) : UInt64.ofNat (n + 1) = UInt64.ofNat n + 1 := by
  rw [UInt64.ofNat_add]
  rfl

section
variable {r : Recorder} {counted : List (Event × Bool)} {settled : List Event} {refused : ℕ}

theorem Tallied.hold (ht : Tallied capacity r counted settled refused) (counts : Counters)
    (outcomes : OrdMap String UInt64) (holder : Holder) (calls : List Event)
    (hcounts : counts.written = r.counts.written ∧ counts.writeErrors = r.counts.writeErrors ∧
      counts.dropped = r.counts.dropped ∧ counts.pending = r.counts.pending)
    (howed : holder.owed = r.holder.owed) (hcalls : calls = settled ++ holder.unsettled) :
    Tallied capacity { r with
      counts := counts, outcomes := outcomes, holder := holder, calls := calls }
      counted settled refused where
  room := ht.room
  accepted := ht.accepted
  output := ht.output
  calls := hcalls
  order := ht.order
  length := ht.length
  written := hcounts.1.trans ht.written
  writeErrors := hcounts.2.1.trans ht.writeErrors
  dropped := hcounts.2.2.1.trans ht.dropped
  pending := by
    rw [hcounts.2.2.2, howed]
    exact ht.pending

theorem Tallied.pass (ht : Tallied capacity r counted settled refused) (queue output : List Event)
    (writer : WriterAt) (done : Bool) (hroom : queue.length ≤ r.queue.length)
    (hevents : writer.hands ++ queue = r.writer.hands ++ r.queue)
    (houtput : output = ((counted ++ writer.uncounted).filter (fun p => !p.2)).map Prod.fst) :
    Tallied capacity { r with queue := queue, output := output, writer := writer, done := done }
      counted settled refused where
  room := hroom.trans ht.room
  accepted := by
    rw [ht.accepted, List.append_assoc, List.append_assoc, hevents]
  output := houtput
  calls := ht.calls
  order := ht.order
  length := ht.length
  written := ht.written
  writeErrors := ht.writeErrors
  dropped := ht.dropped
  pending := by
    rw [← List.length_append, hevents, List.length_append]
    exact ht.pending

theorem Tallied.close (ht : Tallied capacity r counted settled refused) (id : ℕ) (c : CloserAt)
    (holder : Holder) (closed queueClosed aborted : Bool)
    (hcalls : holder.unsettled = r.holder.unsettled) (howed : holder.owed = r.holder.owed) :
    Tallied capacity { r.closeAt id c with
      holder := holder, closed := closed, queueClosed := queueClosed, aborted := aborted }
      counted settled refused :=
  { ht with
    calls := ht.calls.trans (congrArg _ hcalls.symm)
    pending := by
      rw [howed]
      exact ht.pending }

theorem Tallied.pending_eq (ht : Tallied capacity r counted settled refused) (howed : r.holder.owed = 0) :
    r.counts.pending = .ofNat (r.writer.hands.length + r.queue.length) := by
  have hpending := ht.pending
  rw [howed] at hpending
  exact (UInt64.add_zero _).symm.trans hpending

theorem Tallied.pending_toNat (ht : Tallied capacity r counted settled refused) (hcap : capacity < 2^63)
    (howed : r.holder.owed = 0) :
    r.counts.pending.toNat = r.writer.hands.length + r.queue.length := by
  have hhands : r.writer.hands.length ≤ 1 := by
    cases r.writer with
    | ended a => cases a <;> simp
    | _ => simp
  have hroom := ht.room
  rw [ht.pending_eq howed]
  apply UInt64.toNat_ofNat_of_lt'
  simp only [UInt64.size]
  omega

end

theorem tallied_step (r r' : Recorder) (hr : Guarded r) (h : Moves capacity r r')
    (counted : List (Event × Bool)) (settled : List Event) (refused : ℕ)
    (ht : Tallied capacity r counted settled refused) :
    ∃ counted' settled' refused', Tallied capacity r' counted' settled' refused' := by
  cases h with
  | stay => exact ⟨_, _, _, ht⟩
  | call e h =>
    have hcalls : r.calls = settled := by simpa [h] using ht.calls
    exact ⟨_, _, _, ht.hold _ _ _ _ ⟨rfl, rfl, rfl, rfl⟩ (by simp [h])
      (by rw [hcalls]; rfl)⟩
  | count e h =>
    refine ⟨_, _, _, ht.hold _ _ _ _ (r.counts.count_frame e) ?_ ?_⟩
    · by_cases hc : r.closed = true <;> simp [h, hc]
    · rw [ht.calls, h]
      by_cases hc : r.closed = true <;> simp [hc]
  | panic e h hc => exact ⟨_, _, _, { ht with }⟩
  | queued e h hroom =>
    refine ⟨counted, settled ++ [e], refused, ?_⟩
    exact { ht with
      room := by simpa using hroom
      accepted := by simp [ht.accepted]
      calls := by simp [ht.calls, h]
      order := ht.order.append (List.Sublist.refl _)
      length := by simp [ht.length]; omega
      pending := by
        simp [ht.pending_eq (by rw [h]; rfl), ← add_assoc] }
  | handed e h hcap hw =>
    have hq : r.queue = [] := List.length_eq_zero_iff.mp (by simpa [hcap] using ht.room)
    refine ⟨counted, settled ++ [e], refused, ?_⟩
    exact { ht with
      accepted := by simp [ht.accepted, hw, hq]
      output := by simp [ht.output, hw]
      calls := by simp [ht.calls, h]
      order := ht.order.append (List.Sublist.refl _)
      length := by simp [ht.length]; omega
      pending := by
        have hp : r.counts.pending = 0 := by
          simpa [h, hw, hq] using ht.pending
        simp [hp, hq] }
  | refused e h =>
    exact ⟨_, _, _, ht.hold _ _ _ _ ⟨rfl, rfl, rfl, rfl⟩ (by simp [h]) (by rw [ht.calls, h]; rfl)⟩
  | increment e h =>
    refine ⟨counted, settled, refused, ?_⟩
    exact { ht with
      calls := by simp [ht.calls, h]
      pending := by simpa [h] using ht.pending }
  | drop e h =>
    refine ⟨counted, settled ++ [e], refused + 1, ?_⟩
    exact { ht with
      calls := by simp [ht.calls, h]
      order := ht.order.trans (List.sublist_append_left _ _)
      length := by simp [ht.length]; omega
      dropped := by
        rw [Nat.add_right_comm, ofNat_succ]
        exact congrArg (· + 1) ht.dropped
      pending := by simpa [h] using ht.pending }
  | taken e rest h hq =>
    exact ⟨_, _, _, ht.pass _ _ _ _ (by simp [hq]) (by simp [h, hq]) (by simp [ht.output, h])⟩
  | drained h | abandoned _ h =>
    exact ⟨_, _, _, ht.pass _ _ _ _ le_rfl (by simp [h]) (by simp [ht.output, h])⟩
  | encoded e failed h =>
    refine ⟨_, _, _, ht.pass _ _ _ _ le_rfl (by simp [h]) ?_⟩
    cases failed <;> simp [ht.output, h]
  | locked e failed h hfree =>
    refine ⟨_, _, _, ht.hold _ _ _ _ ⟨rfl, rfl, rfl, rfl⟩ (by simp [hfree]) ?_⟩
    simp [ht.calls, hfree]
  | failed e h hheld | wrote e h hheld =>
    -- the writer counts the event that it has encoded
    refine ⟨counted ++ r.writer.uncounted, settled, refused, ?_⟩
    have hp : r.counts.pending = .ofNat r.queue.length + 1 := by
      rw [← ofNat_succ, add_comm]
      simpa [h, hheld] using ht.pending
    exact { ht with
      accepted := by simp [ht.accepted, h]
      output := by simp [ht.output, h]
      calls := by simp [ht.calls, hheld]
      written := by simp [ht.written, h]
      writeErrors := by simp [ht.writeErrors, h]
      dropped := by simp [ht.dropped, h, add_assoc]
      pending := by simp [hp] }
  | enter id h hheld => exact ⟨_, _, _, ht.close _ _ _ _ _ _ (by simp [hheld]) (by simp [hheld])⟩
  | again id h =>
    have hheld := hr.held id (Or.inl h)
    exact ⟨_, _, _, ht.close _ _ _ _ _ _ (by simp [hheld]) (by simp [hheld])⟩
  | closedQueue id h =>
    have hheld := hr.held id (Or.inr h)
    exact ⟨_, _, _, ht.close _ _ _ _ _ _ (by simp [hheld]) (by simp [hheld])⟩
  | closing | expired | finished | returned => exact ⟨_, _, _, ht.close _ _ _ _ _ _ rfl rfl⟩

structure Flushed (r : Recorder) : Prop where
  closed : r.closed = true
  writer : r.writer = .ended none
  queue : r.queue = []
  owed : r.holder.owed = 0

theorem flushed_step (r r' : Recorder) (hr : Guarded r) (h : Moves capacity r r')
    (hf : Flushed r) : Flushed r' := by
  cases h with
  | stay => exact hf
  | count e h => exact { hf with owed := by simp [hf.closed] }
  | panic e h | queued e h | handed e h | refused e h =>
    have hopen := hr.send e h
    rw [hf.closed] at hopen
    cases hopen
  | taken _ _ h | drained h | abandoned _ h | encoded _ _ h | locked _ _ h | failed _ h | wrote _ h =>
    simp [hf.writer] at h
  | call | increment | drop | enter | again | closedQueue => exact { hf with owed := rfl }
  | closing => exact { hf with closed := rfl }
  | expired | finished | returned => exact { hf with }

/-- What holds in every state: the mutex discipline, the accounting, and that a `Close` only
returns nil when everything is flushed. -/
structure Kept (capacity : ℕ) (r : Recorder) : Prop where
  guarded : Guarded r
  tallied : ∃ counted settled refused, Tallied capacity r counted settled refused
  flushed : ∀ id, r.closers id = .returned true → Flushed r

theorem returned_of_moves (r r' : Recorder) (h : Moves capacity r r') (id : ℕ)
    (hnil : r'.closers id = .returned true) :
    r.closers id = .returned true ∨
      r.closers id = .counting ∧ r.holder = .free ∧ r.counts.pending = 0 := by
  have hother (j : ℕ) (c : CloserAt) (hc : c ≠ .returned true)
      (hj : Function.update r.closers j c id = .returned true) : r.closers id = .returned true := by
    by_cases hid : id = j
    · subst hid
      rw [Function.update_self] at hj
      exact absurd hj hc
    · rwa [Function.update_of_ne hid] at hj
  cases h with
  | enter j | again j | closing j | closedQueue j | expired j | finished j =>
    exact Or.inl (hother j _ (by simp) hnil)
  | returned j h hfree =>
    by_cases hp : r.counts.pending = 0
    · by_cases hid : id = j
      · exact Or.inr ⟨hid ▸ h, hfree, hp⟩
      · exact Or.inl (by simpa [Recorder.closeAt, Function.update_of_ne hid] using hnil)
    · exact Or.inl (hother j _ (by simp [hp]) hnil)
  | _ => exact Or.inl hnil

theorem flushed_of_counted (hcap : capacity < 2^63) (r : Recorder) (hk : Kept capacity r) (id : ℕ)
    (hc : r.closers id = .counting) (hfree : r.holder = .free) (hp : r.counts.pending = 0) :
    Flushed r := by
  obtain ⟨counted, settled, refused, ht⟩ := hk.tallied
  have hfits := hk.guarded.closers id
  rw [hc] at hfits
  obtain ⟨_, hclosed, hended⟩ := hfits
  have howed : r.holder.owed = 0 := by rw [hfree]; rfl
  have hzero := ht.pending_toNat hcap howed
  rw [hp] at hzero
  have hnone : r.writer.hands.length = 0 ∧ r.queue.length = 0 := by
    rw [UInt64.toNat_zero] at hzero
    omega
  refine ⟨hclosed, ?_, List.length_eq_zero_iff.mp hnone.2, howed⟩
  cases hw : r.writer with
  | ended a =>
    rw [hw] at hnone
    cases a with
    | none => rfl
    | some e => simp at hnone
  | _ => simp [hw] at hended

theorem kept_step (hcap : capacity < 2^63) (r r' : Recorder) (hk : Kept capacity r)
    (h : Moves capacity r r') : Kept capacity r' := by
  obtain ⟨counted, settled, refused, ht⟩ := hk.tallied
  refine ⟨guarded_step r r' hk.guarded h, tallied_step r r' hk.guarded h _ _ _ ht, ?_⟩
  intro id hnil
  apply flushed_step r r' hk.guarded h
  rcases returned_of_moves r r' h id hnil with hbefore | ⟨hc, hfree, hp⟩
  · exact hk.flushed id hbefore
  · exact flushed_of_counted hcap r hk id hc hfree hp

theorem recorder_kept (hcap : capacity < 2^63) (inputs : List RecorderInput) :
    Kept capacity (recorder capacity inputs) := by
  apply run_invariant _ (Kept capacity)
  · intro r i hk
    exact kept_step hcap r _ hk (recorderStep_moves r i)
  · exact ⟨guarded_new, ⟨[], [], 0, tallied_new⟩, fun id h => by simp [Recorder.new] at h⟩

section
variable {r : Recorder} {counted : List (Event × Bool)} {settled : List Event} {refused : ℕ}

theorem Tallied.output_sublist (ht : Tallied capacity r counted settled refused) :
    r.output.Sublist r.calls := by
  have hhands : (r.writer.uncounted.map Prod.fst).Sublist r.writer.hands := by
    cases r.writer <;> simp
  have haccepted : r.output.Sublist r.accepted := by
    rw [ht.output, ht.accepted, List.append_assoc]
    refine (List.filter_sublist.map Prod.fst).trans ?_
    rw [List.map_append]
    exact (List.Sublist.refl _).append (hhands.trans (List.sublist_append_left _ _))
  rw [ht.calls]
  exact (haccepted.trans ht.order).trans (List.sublist_append_left _ _)

theorem countP_add_countP (l : List (Event × Bool)) :
    l.countP (fun p => !p.2) + l.countP (fun p => p.2) = l.length := by
  rw [add_comm, List.length_eq_countP_add_countP (fun p : Event × Bool => p.2)]
  congr 2
  funext p
  cases p.2 <;> rfl

/-- While the mutex is free, every call is written, dropped or pending. -/
theorem Tallied.conserved (ht : Tallied capacity r counted settled refused)
    (hfree : r.holder = .free) :
    r.calls.length = counted.countP (fun p => !p.2) +
      (refused + counted.countP (fun p => p.2)) + (r.writer.hands.length + r.queue.length) := by
  have hcalls : r.calls = settled := by simpa [hfree] using ht.calls
  have haccepted := congrArg List.length ht.accepted
  have hcounted := countP_add_countP counted
  simp only [List.length_append, List.length_map] at haccepted
  rw [hcalls, ht.length]
  omega

end

structure Counted (c : Counters) (written dropped pending writeErrors : ℕ) : Prop where
  written : c.written = .ofNat written
  dropped : c.dropped = .ofNat dropped
  pending : c.pending = .ofNat pending
  writeErrors : c.writeErrors = .ofNat writeErrors

structure ConservationLaw (r : Recorder) : Prop where
  counted : r.holder = .free → ∃ written dropped pending writeErrors,
    Counted r.counts written dropped pending writeErrors ∧
      r.calls.length = written + dropped + pending ∧ writeErrors ≤ dropped
  /-- Before 2^64 calls no counter has wrapped, and the law reads off the counters themselves. -/
  unwrapped : r.holder = .free → r.calls.length < 2^64 →
    r.calls.length = r.counts.written.toNat + r.counts.dropped.toNat + r.counts.pending.toNat ∧
      r.counts.writeErrors ≤ r.counts.dropped
  pending : r.holder = .free →
    r.counts.pending.toNat = r.queue.length + r.writer.hands.length
  underflow : r.holder = .writer → 0 < r.counts.pending
  panicked : r.panicked = false
  order : r.output.Sublist r.calls
  flushed : ∀ id, r.closers id = .returned true → r.counts.pending = 0 ∧
    ∃ written writeErrors, r.counts.written = .ofNat written ∧
      r.counts.writeErrors = .ofNat writeErrors ∧ written + writeErrors = r.accepted.length

end Faultline.Recording
