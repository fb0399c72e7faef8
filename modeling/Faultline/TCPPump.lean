import Faultline.TCPSession

/-! What a step of a pump keeps. Its bytes are in order between source and destination
until it drops some, and once it has dropped bytes it writes no more. -/
namespace Faultline.TCP

/-- The written bytes, the bytes in hand and the bytes to come make up the stream. -/
def Pump.Intact (p : Pump) (stream : Bytes) : Prop :=
  p.written ++ (p.payload ++ (p.ahead ++ p.rest)) = stream

/-- A pump at this stage writes no more, given whether its direction is held. -/
def Stage.Mute (blocked : Bool) : Stage → Prop
  | .done => True
  | .held => True
  | .loop => blocked = true
  | .tail _ => blocked = true
  | _ => False

def Stage.Fits (payload : Bytes) : Stage → Prop
  | .loop => payload = []
  | .held => payload = []
  | .read => payload = []
  | .tail _ => payload = []
  | .check _ => payload ≠ []
  | .cut _ => payload ≠ []
  | .pace _ n => 0 < n ∧ n ≤ payload.length
  | .write _ n => 0 < n ∧ n ≤ payload.length
  | _ => True

def Stage.pending : Stage → ℕ
  | .add _ n _ => n
  | _ => 0

structure Pump.Sound (blocked : Bool) (stream : Bytes) (p : Pump) : Prop where
  carries : p.Intact stream ∨ p.written <+: stream ∧ p.stage.Mute blocked
  fits : p.stage.Fits p.payload
  counted : p.count + p.stage.pending = p.written.length

theorem Pump.Intact.sent {p : Pump} {stream : Bytes} (h : p.Intact stream) :
    p.written <+: stream := ⟨_, h⟩

theorem Pump.Sound.sent {p : Pump} {blocked : Bool} {stream : Bytes} (h : p.Sound blocked stream) :
    p.written <+: stream := by
  rcases h.carries with hi | hm
  · exact hi.sent
  · exact hm.1

theorem Pump.Sound.mono {p : Pump} {b b' : Bool} {stream : Bytes} (h : p.Sound b stream)
    (hb : b = true → b' = true) : p.Sound b' stream where
  carries := by
    refine h.carries.imp_right (And.imp_right ?_)
    cases p.stage <;> simp_all [Stage.Mute]
  fits := h.fits
  counted := h.counted

theorem untilTrigger_bounds (s : Relay) (d : Direction) (count n : ℕ) (hn : 0 < n) :
    0 < s.untilTrigger d count n ∧ s.untilTrigger d count n ≤ n := by
  unfold Relay.untilTrigger
  split
  · omega
  · split
    · omega
    · simp only
      split_ifs <;> omega

theorem chunk_bounds (s : Relay) (d : Direction) (p : Pump) (hp : p.payload ≠ []) :
    0 < s.chunk d p ∧ s.chunk d p ≤ p.payload.length := by
  have h := untilTrigger_bounds s d p.count p.payload.length (List.length_pos_iff.mpr hp)
  unfold Relay.chunk
  simp only
  split_ifs <;> omega

theorem read_cases (p : Pump) (closed : Bool) (a : Answer) :
    p.read closed a = { p with stage := .tail true } ∧
        (closed = true ∨ p.ahead = [] ∧ p.rest = []) ∨
      ∃ ahead rest payload last, p.read closed a =
          { p with ahead := ahead, rest := rest, payload := payload, stage := .check last } ∧
        payload ≠ [] ∧ payload ++ (ahead ++ rest) = p.ahead ++ p.rest ∧
        (last = true → ahead = [] ∧ rest = []) := by
  unfold Pump.read
  by_cases hahead : p.ahead = []
  · rw [if_neg (by simpa using hahead)]
    by_cases hend : p.rest = [] ∨ (closed = true ∧ a.fails = true)
    · rw [if_pos hend]
      exact .inl ⟨rfl, hend.symm.imp (fun h => h.1) (fun h => ⟨hahead, h⟩)⟩
    · rw [if_neg hend]
      push Not at hend
      have hn : 0 < min (max a.size 1) bufferSize := by
        unfold bufferSize
        omega
      refine .inr ⟨p.ahead, _, _, _, rfl, ?_, ?_, ?_⟩
      · rw [← List.length_pos_iff, List.length_take]
        have := List.length_pos_iff.mpr hend.1
        omega
      · rw [hahead, List.nil_append, List.take_append_drop, List.nil_append]
      · intro hlast
        rw [decide_eq_true_eq] at hlast
        exact ⟨hahead, List.drop_eq_nil_of_le hlast.1⟩
  · rw [if_pos hahead]
    refine .inr ⟨_, p.rest, _, false, rfl, ?_, ?_, fun h => by cases h⟩
    · rw [← List.length_pos_iff, List.length_take]
      have := List.length_pos_iff.mpr hahead
      unfold bufferSize
      omega
    · rw [← List.append_assoc, List.take_append_drop]

theorem read_sound {p : Pump} {stream : Bytes} {closed blocked : Bool} {a : Answer}
    (h : p.Sound blocked stream) (hstage : p.stage = .read) : (p.read closed a).Sound blocked stream := by
  obtain ⟨hcarries, hfits, hcounted⟩ := h
  rw [hstage] at hcarries hfits hcounted
  have hi : p.Intact stream := hcarries.resolve_right (fun hm => hm.2)
  rcases read_cases p closed a with ⟨heq, -⟩ | ⟨ahead, rest, payload, last, heq, hne, hsplit, -⟩
  · rw [heq]
    exact ⟨.inl hi, hfits, hcounted⟩
  · rw [heq]
    refine ⟨.inl ?_, hne, hcounted⟩
    change p.written ++ (payload ++ (ahead ++ rest)) = stream
    rw [hsplit]
    have := hi
    rwa [Pump.Intact, show p.payload = [] from hfits, List.nil_append] at this

/-- The step lemma: whatever the network answers, a step of the pump keeps it sound. -/
theorem pumpStep_sound {s : Relay} {d : Direction} {p : Pump} {stream : Bytes} (a : Answer)
    (h : p.Sound (s.blocked d) stream) : (pumpStep s d p a).Sound (s.blocked d) stream := by
  obtain ⟨hcarries, hfits, hcounted⟩ := h
  have hsent : p.written <+: stream := by
    rcases hcarries with hi | hm
    · exact hi.sent
    · exact hm.1
  unfold pumpStep
  cases hstage : p.stage with
  | loop =>
    rw [hstage] at hcarries hfits hcounted
    -- a mute pump at the head of the loop is held
    by_cases hb : s.blocked d = true
    · simp only [hb, if_true]
      exact ⟨.inr ⟨hsent, trivial⟩, hfits, hcounted⟩
    · simp only [hb]
      exact ⟨.inl (hcarries.resolve_right (fun hm => hb hm.2)), hfits, hcounted⟩
  | held =>
    rw [hstage] at hcounted
    exact ⟨.inr ⟨hsent, trivial⟩, trivial, hcounted⟩
  | read => exact read_sound ⟨hcarries, hfits, hcounted⟩ hstage
  | check last =>
    rw [hstage] at hcarries hfits hcounted
    by_cases hb : s.blocked d = true
    · simp only [hb, if_true]
      exact ⟨.inr ⟨hsent, rfl⟩, rfl, hcounted⟩
    · simp only [hb]
      exact ⟨.inl (hcarries.resolve_right (fun hm => hm.2)), hfits, hcounted⟩
  | cut last =>
    rw [hstage] at hcarries hfits hcounted
    exact ⟨.inl (hcarries.resolve_right (fun hm => hm.2)), chunk_bounds s d p hfits, hcounted⟩
  | pace last n =>
    rw [hstage] at hcarries hfits hcounted
    have hi : p.Intact stream := hcarries.resolve_right (fun hm => hm.2)
    simp only
    split_ifs
    · exact ⟨.inl hi, trivial, hcounted⟩
    · exact ⟨.inl hi, hfits, hcounted⟩
  | write last n =>
    rw [hstage] at hcarries hfits hcounted
    have hi : p.Intact stream := hcarries.resolve_right (fun hm => hm.2)
    refine ⟨.inl ?_, trivial, ?_⟩
    · -- the bytes written are the first of the payload
      calc p.written ++ p.payload.take (min a.size n) ++
            (p.payload.drop (min a.size n) ++ (p.ahead ++ p.rest))
          = p.written ++ (p.payload.take (min a.size n) ++ p.payload.drop (min a.size n) ++
              (p.ahead ++ p.rest)) := by simp only [List.append_assoc]
        _ = stream := by
            rw [List.take_append_drop]
            exact hi
    · have hn : n ≤ p.payload.length := hfits.2
      have hw : p.count = p.written.length := hcounted
      simp only [Stage.pending, List.length_append, List.length_take]
      omega
  | add last n failed =>
    rw [hstage] at hcarries hcounted
    exact ⟨.inl (hcarries.resolve_right (fun hm => hm.2)), trivial, hcounted⟩
  | wrote last failed =>
    rw [hstage] at hcarries hcounted
    have hi : p.Intact stream := hcarries.resolve_right (fun hm => hm.2)
    simp only
    split_ifs with hfailed hb hempty
    · exact ⟨.inl hi, trivial, hcounted⟩
    · exact ⟨.inr ⟨hsent, hb⟩, rfl, hcounted⟩
    · exact ⟨.inl hi, hempty, hcounted⟩
    · exact ⟨.inl hi, hempty, hcounted⟩
  | tail last =>
    rw [hstage] at hcarries hfits hcounted
    simp only
    split_ifs
    · exact ⟨.inr ⟨hsent, trivial⟩, trivial, hcounted⟩
    · exact ⟨hcarries, hfits, hcounted⟩
  | done => exact ⟨hcarries, hfits, hcounted⟩

def Stage.last : Stage → Bool
  | .check last => last
  | .cut last => last
  | .pace last _ => last
  | .write last _ => last
  | .add last _ _ => last
  | .wrote last _ => last
  | .tail last => last
  | _ => false

/-- A pump whose writes have all succeeded and whose direction was never held: it has
lost nothing, and an error of the source or the end means that all was read. -/
structure Pump.Whole (stream : Bytes) (p : Pump) : Prop where
  intact : p.Intact stream
  last : p.stage.last = true → p.ahead = [] ∧ p.rest = []
  done : p.stage = .done → p.written = stream
  free : p.stage ≠ .held
  succeeded : ∀ last n, p.stage ≠ .add last n true ∧ p.stage ≠ .wrote last true

/-- The stages in the order in which a pump reaches them, counted from the end. The tail
after an error of the source leads to the end, any other one back to the loop. -/
def Stage.rank : Stage → ℕ
  | .done => 0
  | .held => 1
  | .tail true => 1
  | .read => 2
  | .loop => 3
  | .tail false => 4
  | .write _ _ => 5
  | .pace _ _ => 6
  | .cut _ => 7
  | .check _ => 8
  | .wrote _ _ => 8
  | .add _ _ _ => 9

def Pump.work (p : Pump) : ℕ :=
  20*(p.ahead.length + p.rest.length) + 10*p.payload.length + p.stage.rank

theorem tail_rank (last : Bool) : (Stage.tail last).rank ≤ 4 := by
  cases last <;> decide

theorem rank_le (stage : Stage) : stage.rank ≤ 9 := by
  cases stage with
  | tail last => exact (tail_rank last).trans (by omega)
  | _ => simp [Stage.rank]

theorem work_le {p : Pump} {stream : Bytes} (h : p.Whole stream) : p.work ≤ 20*stream.length + 9 := by
  have hlen : p.written.length + (p.payload.length + (p.ahead.length + p.rest.length)) = stream.length := by
    rw [← h.intact]
    simp only [List.length_append]
  have hrank := rank_le p.stage
  unfold Pump.work
  omega

section Undisturbed
variable {s : Relay} {d : Direction} {p : Pump} {stream : Bytes} {a : Answer}

def Stage.Succeeds (a : Answer) : Stage → Prop
  | .write _ _ => a.fails = false ∧ 0 < a.size
  | _ => True

theorem read_whole (h : p.Whole stream) (hfits : p.stage.Fits p.payload) (hstage : p.stage = .read) :
    (p.read false a).Whole stream ∧ (p.read false a).work < p.work := by
  rw [hstage] at hfits
  have hempty : p.payload = [] := hfits
  have hi := h.intact
  rw [Pump.Intact, hempty, List.nil_append] at hi
  rcases read_cases p false a with ⟨heq, hend⟩ | ⟨ahead, rest, payload, last, heq, hne, hsplit, hlast⟩
  · have hread := hend.resolve_left (by simp)
    rw [heq]
    refine ⟨⟨h.intact, fun _ => hread, by simp, by simp, by simp⟩, ?_⟩
    simp only [Pump.work, hstage, Stage.rank]
    omega
  · rw [heq]
    refine ⟨⟨?_, hlast, by simp, by simp, by simp⟩, ?_⟩
    · rw [← hsplit] at hi
      exact hi
    · have hlen : payload.length + (ahead.length + rest.length) = p.ahead.length + p.rest.length := by
        have := congrArg List.length hsplit
        simpa only [List.length_append] using this
      have hpos := List.length_pos_iff.mpr hne
      simp only [Pump.work, hstage, Stage.rank, hempty, List.length_nil]
      omega

theorem pumpStep_whole (h : p.Whole stream) (hfits : p.stage.Fits p.payload)
    (hfree : s.blocked d = false) (hopen : s.closed = false) (hlive : s.cancelled = false)
    (ha : p.stage.Succeeds a) (hdone : p.stage ≠ .done) :
    (pumpStep s d p a).Whole stream ∧ (pumpStep s d p a).work < p.work := by
  obtain ⟨hi, hlast, -, hheld, hsucc⟩ := h
  unfold pumpStep
  cases hstage : p.stage with
  | loop =>
    rw [hstage] at hlast
    simp only [hfree]
    refine ⟨⟨hi, by simp [Stage.last], by simp, by simp, by simp⟩, ?_⟩
    simp [Pump.work, hstage, Stage.rank]
  | held => exact absurd hstage hheld
  | read =>
    simp only [hopen]
    exact read_whole ⟨hi, hlast, by simp [hstage], hheld, hsucc⟩ hfits hstage
  | check last =>
    rw [hstage] at hlast
    simp only [hfree]
    refine ⟨⟨hi, hlast, by simp, by simp, by simp⟩, ?_⟩
    simp [Pump.work, hstage, Stage.rank]
  | cut last =>
    rw [hstage] at hlast
    refine ⟨⟨hi, hlast, by simp, by simp, by simp⟩, ?_⟩
    simp [Pump.work, hstage, Stage.rank]
  | pace last n =>
    rw [hstage] at hlast
    simp only [hlive, Bool.and_false, Bool.false_and]
    refine ⟨⟨hi, hlast, by simp, by simp, by simp⟩, ?_⟩
    simp [Pump.work, hstage, Stage.rank]
  | write last n =>
    rw [hstage] at hlast hfits ha
    obtain ⟨hok, hsize⟩ := ha
    obtain ⟨hpos, hn⟩ := hfits
    have hfailed : (a.fails || decide (a.size = 0)) = false := by
      rw [hok, Bool.false_or, decide_eq_false_iff_not]
      omega
    simp only [hfailed]
    refine ⟨⟨?_, hlast, by simp, by simp, by simp⟩, ?_⟩
    · change p.written ++ _ ++ (_ ++ (p.ahead ++ p.rest)) = stream
      rw [List.append_assoc, ← List.append_assoc (p.payload.take _), List.take_append_drop]
      exact hi
    · -- at least one byte of the payload has gone
      simp only [Pump.work, hstage, Stage.rank, List.length_drop]
      omega
  | add last n failed =>
    rw [hstage] at hlast
    have hok : failed = false := by
      rw [← Bool.not_eq_true]
      rintro rfl
      exact (hsucc last n).1 hstage
    subst hok
    refine ⟨⟨hi, hlast, by simp, by simp, by simp⟩, ?_⟩
    simp [Pump.work, hstage, Stage.rank]
  | wrote last failed =>
    rw [hstage] at hlast
    have hok : failed = false := by
      rw [← Bool.not_eq_true]
      rintro rfl
      exact (hsucc last 0).2 hstage
    have htail := tail_rank last
    simp only [hok, hfree, Bool.false_eq_true, if_false]
    split_ifs with hempty
    · refine ⟨⟨hi, hlast, by simp, by simp, by simp⟩, ?_⟩
      simp only [Pump.work, hstage]
      simp only [Stage.rank] at htail ⊢
      omega
    · refine ⟨⟨hi, hlast, by simp, by simp, by simp⟩, ?_⟩
      simp [Pump.work, hstage, Stage.rank]
  | tail last =>
    rw [hstage] at hlast hfits
    cases last with
    | true =>
      -- everything was read, and nothing is left in hand
      obtain ⟨h1, h2⟩ := hlast rfl
      have hall : p.written = stream := by
        have := hi
        rwa [Pump.Intact, show p.payload = [] from hfits, h1, h2, List.append_nil, List.append_nil,
          List.append_nil] at this
      refine ⟨⟨hi, by simp [Stage.last], fun _ => hall, by simp, by simp⟩, ?_⟩
      simp [Pump.work, hstage, Stage.rank]
    | false =>
      simp only [hlive]
      refine ⟨⟨hi, by simp [Stage.last], by simp, by simp, by simp⟩, ?_⟩
      simp [Pump.work, hstage, Stage.rank]
  | done => exact absurd hstage hdone

end Undisturbed

end Faultline.TCP
