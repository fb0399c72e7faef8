import Faultline.Executors
import Faultline.Machine

/-! A request or response body under a fault: what a caller reads through it from a source that
returns its bytes in pieces of any size. The context is never cancelled here. -/
namespace Faultline

/-- A source: the bytes it has still to deliver, and the error with which it then ends. -/
@[ext] structure Source where
  rest : Bytes
  final : String
  deriving DecidableEq

/-- How a source answers one read: with how many bytes at most, and whether its final error comes
along when nothing is left. -/
structure Piece where
  size : ℕ
  last : Bool
  deriving DecidableEq

def Source.read (s : Source) (length : ℕ) (piece : Piece) : Bytes × Option String × Source :=
  let n := min piece.size length
  (s.rest.take n, if s.rest.drop n = [] ∧ piece.last then some s.final else none,
    { s with rest := s.rest.drop n })

inductive BodyError where
  | truncated
  | source (message : String)
  deriving DecidableEq

/-- What happens at a body: a call of `onApplied`, and what a read returns. -/
inductive BodyEvent where
  | applied
  | returned (data : Bytes) (error : Option BodyError)
  deriving DecidableEq

structure Reading where
  body : Body
  source : Source
  log : List BodyEvent

def Reading.start (f : Fault) (source : Source) : Reading := ⟨wrapBody f, source, []⟩

def Reading.note (r : Reading) (e : BodyEvent) : Reading := { r with log := r.log ++ [e] }

/-- The bytes per read of a throttled body: `min(16<<10, max(1, rate/10))`. -/
def throttleChunk (rate : Int64) : ℕ := (min (16*2^10) (max 1 (rate / 10).toInt)).toNat

/-- `Body.Read` into a buffer of some length. A negative bound and a rate that is nil are panics. -/
def Reading.read (r : Reading) (length : ℕ) (piece : Piece) : Option Reading :=
  if length = 0 then some (r.note (.returned [] none))
  else if r.body.action.action = "truncate" then
    if r.body.remaining = 0 then
      let (data, error, source) := r.source.read 1 piece
      if 0 < data.length then
        some (({ r with source := source }.note .applied).note (.returned [] (some .truncated)))
      else some ({ r with source := source }.note (.returned [] (error.map .source)))
    else if r.body.remaining < 0 then none
    else
      let (data, error, source) := r.source.read (min (length : ℤ) r.body.remaining.toInt).toNat piece
      some ({ r with
        source := source
        body := { r.body with remaining := r.body.remaining - Int64.ofNat data.length } }.note
          (.returned data (error.map .source)))
  else
    match r.body.action.bytesPerSecond with
    | none => none
    | some rate =>
      let (data, error, source) := r.source.read (min length (throttleChunk rate)) piece
      let next := { r with source := source }
      some ((if 0 < data.length then next.note .applied else next).note
        (.returned data (error.map .source)))

def Reading.reads (r : Reading) : List (ℕ × Piece) → Option Reading
  | [] => some r
  | i :: inputs => (r.read i.1 i.2).bind (fun r' => r'.reads inputs)

theorem reads_snoc (r : Reading) (inputs : List (ℕ × Piece)) (i : ℕ × Piece) :
    r.reads (inputs ++ [i]) = (r.reads inputs).bind (fun r' => r'.read i.1 i.2) := by
  induction inputs generalizing r with
  | nil => simp [Reading.reads]
  | cons j inputs ih =>
    simp only [List.cons_append, Reading.reads, Option.bind_assoc]
    exact Option.bind_congr (fun r' _ => ih r')

def BodyError.text : BodyError → String
  | .truncated => errTruncated
  | .source message => message

def Reading.room (r : Reading) (length : ℕ) : ℕ :=
  if r.body.action.action = "truncate" then
    if r.body.remaining = 0 then 1 else (min (length : ℤ) r.body.remaining.toInt).toNat
  else min length (throttleChunk (r.body.action.bytesPerSecond.getD 0))

def Reading.answer (r : Reading) (length : ℕ) (piece : Piece) : SourceAnswer :=
  ⟨min piece.size r.source.rest.length, (r.source.read (r.room length) piece).2.1, none⟩

theorem Source.read_length (s : Source) (length : ℕ) (piece : Piece) :
    (s.read length piece).1.length = min (min piece.size s.rest.length) length := by
  simp only [Source.read, List.length_take]
  omega

/-- A read with its bytes is a read of the body by sizes. -/
theorem read_body (r r' : Reading) (length : ℕ) (piece : Piece) (h : r.read length piece = some r') :
    ∃ out data error, r.body.read length none (r.answer length piece) = some (out, r'.body) ∧
      r'.log = r.log ++ ((if out.applied then [.applied] else []) ++ [.returned data error]) ∧
      data.length = out.size ∧ error.map BodyError.text = out.error := by
  have htext (error : Option String) : (error.map BodyError.source).map BodyError.text = error := by
    rw [Option.map_map]
    exact Option.map_id'
  unfold Reading.read at h
  by_cases hlength : length = 0
  · rw [if_pos hlength] at h
    obtain rfl := Option.some.inj h
    exact ⟨_, [], none, by rw [Body.read, if_pos hlength]; rfl, rfl, rfl, rfl⟩
  rw [if_neg hlength] at h
  have hsize := r.source.read_length (r.room length) piece
  unfold Body.read
  rw [if_neg hlength, if_neg (by decide)]
  by_cases haction : r.body.action.action = "truncate"
  · rw [if_pos haction] at h ⊢
    by_cases hzero : r.body.remaining = 0
    · have hroom : r.room length = 1 := by rw [Reading.room, if_pos haction, if_pos hzero]
      rw [if_pos hzero] at h ⊢
      simp only [Reading.answer]
      rw [hroom] at hsize ⊢
      generalize r.source.read 1 piece = a at h hsize
      obtain ⟨data, error, source⟩ := a
      simp only at h hsize ⊢
      by_cases hdata : 0 < data.length
      · rw [if_pos hdata] at h
        obtain rfl := Option.some.inj h
        exact ⟨_, [], some .truncated, if_pos (by omega), List.append_assoc _ _ _, rfl, rfl⟩
      · rw [if_neg hdata] at h
        obtain rfl := Option.some.inj h
        exact ⟨_, [], error.map .source, if_neg (by omega), rfl, rfl, htext error⟩
    · rw [if_neg hzero] at h ⊢
      by_cases hneg : r.body.remaining < 0
      · rw [if_pos hneg] at h
        cases h
      have hroom : r.room length = (min (length : ℤ) r.body.remaining.toInt).toNat := by
        rw [Reading.room, if_pos haction, if_neg hzero]
      have hnonneg : 0 ≤ r.body.remaining.toInt := by
        have hle := Int64.lt_iff_toInt_lt.not.mp hneg
        rw [Int64.toInt_zero] at hle
        omega
      rw [if_neg hneg] at h
      simp only [Reading.answer]
      rw [hroom] at hsize ⊢
      rw [if_neg (by omega)]
      generalize r.source.read (min (length : ℤ) r.body.remaining.toInt).toNat piece = a at h hsize
      obtain ⟨data, error, source⟩ := a
      simp only at h hsize ⊢
      obtain rfl := Option.some.inj h
      rw [← hsize]
      exact ⟨_, data, error.map .source, rfl, rfl, rfl, htext error⟩
  · rw [if_neg haction] at h ⊢
    cases hrate : r.body.action.bytesPerSecond with
    | none =>
      rw [hrate] at h
      cases h
    | some rate =>
      rw [hrate] at h
      have hroom : r.room length = min length (throttleChunk rate) := by
        rw [Reading.room, if_neg haction, hrate, Option.getD_some]
      have hbound : (min (length : ℤ) (min (16*2^10) (max 1 (rate / 10).toInt))).toNat =
          min length (throttleChunk rate) := by
        unfold throttleChunk
        omega
      simp only [Reading.answer] at h ⊢
      rw [hroom] at hsize ⊢
      rw [if_neg (by omega), hbound]
      generalize r.source.read (min length (throttleChunk rate)) piece = a at h hsize
      obtain ⟨data, error, source⟩ := a
      simp only at h hsize ⊢
      obtain rfl := Option.some.inj h
      refine ⟨⟨data.length, error, decide (0 < data.length)⟩, data, error.map .source, ?_, ?_, rfl, htext error⟩
      · refine (if_neg (by simp)).trans ?_
        simp only [hsize]
        split_ifs <;> rfl
      · by_cases hdata : 0 < data.length
        · rw [if_pos hdata, if_pos (decide_eq_true hdata)]
          exact List.append_assoc _ _ _
        · rw [if_neg hdata, if_neg (by simpa using hdata)]
          rfl

def Source.answers (s : Source) (piece : Piece) : Bool :=
  if s.rest = [] then piece.last else decide (0 < piece.size)

/-- What a read of a source does: it moves bytes, at most as many as there is room for, and an
error comes when nothing is left. -/
structure SourceRead (s : Source) (length : ℕ) (piece : Piece) (data : Bytes) (error : Option String)
    (s' : Source) : Prop where
  moved : s.rest = data ++ s'.rest
  room : data.length ≤ length
  final : s'.final = s.final
  ended : ∀ e, error = some e → s'.rest = [] ∧ e = s.final
  answers : 0 < length → s.answers piece = true → data ≠ [] ∨ error ≠ none

theorem Source.read_spec (s : Source) (length : ℕ) (piece : Piece) : SourceRead s length piece
    (s.read length piece).1 (s.read length piece).2.1 (s.read length piece).2.2 := by
  refine ⟨(List.take_append_drop _ _).symm, ?_, rfl, ?_, ?_⟩
  · simp only [Source.read, List.length_take]
    omega
  · intro e he
    simp only [Source.read] at he ⊢
    split_ifs at he with hlast
    exact ⟨hlast.1, (Option.some.inj he).symm⟩
  · intro hroom hanswers
    by_cases hrest : s.rest = []
    · refine .inr ?_
      rw [Source.answers, if_pos hrest] at hanswers
      simp [Source.read, hrest, hanswers]
    · refine .inl ?_
      rw [Source.answers, if_neg hrest, decide_eq_true_eq] at hanswers
      have hpos := List.length_pos_iff.mpr hrest
      rw [← List.length_pos_iff]
      simp only [Source.read, List.length_take]
      omega

def delivered (log : List BodyEvent) : Bytes :=
  log.flatMap (fun
    | .applied => []
    | .returned data _ => data)

@[simp] theorem delivered_append (a b : List BodyEvent) : delivered (a ++ b) = delivered a ++ delivered b :=
  List.flatMap_append

@[simp] theorem delivered_nil : delivered [] = [] := rfl

@[simp] theorem delivered_applied (log : List BodyEvent) : delivered (.applied :: log) = delivered log := rfl

@[simp] theorem delivered_returned (data : Bytes) (error : Option BodyError) (log : List BodyEvent) :
    delivered (.returned data error :: log) = data ++ delivered log := rfl

def Quiet (log : List BodyEvent) : Prop := ∀ data e, .returned data (some e) ∉ log

inductive TruncateCase (r : Reading) (length : ℕ) (piece : Piece) : Reading → Prop
  /-- The buffer is empty. -/
  | empty (h : length = 0) : TruncateCase r length piece (r.note (.returned [] none))
  /-- The limit is reached and the source has more. -/
  | cut (b : UInt8) (source : Source) (hlimit : r.body.remaining = 0)
      (hmoved : r.source.rest = b :: source.rest) (hfinal : source.final = r.source.final) :
      TruncateCase r length piece
        (({ r with source := source }.note .applied).note (.returned [] (some .truncated)))
  /-- The limit is reached, and the source returns no byte. -/
  | probe (error : Option String) (hlimit : r.body.remaining = 0)
      (herror : ∀ e, error = some e → r.source.rest = [] ∧ e = r.source.final)
      (hanswers : r.source.answers piece = true → error ≠ none) :
      TruncateCase r length piece (r.note (.returned [] (error.map .source)))
  /-- The limit is not reached. -/
  | pass (data : Bytes) (error : Option String) (source : Source) (body : Body)
      (hread : SourceRead r.source (min (length : ℤ) r.body.remaining.toInt).toNat piece data error source)
      (hbody : body.action = r.body.action)
      (hremaining : body.remaining.toInt = r.body.remaining.toInt - data.length)
      (hroom : data.length ≤ r.body.remaining.toInt) (hpositive : 0 < r.body.remaining.toInt) :
      TruncateCase r length piece
        ((⟨body, source, r.log⟩ : Reading).note (.returned data (error.map .source)))

theorem sub_toInt (a : Int64) (n : ℕ) (h : (n : ℤ) ≤ a.toInt) :
    (a - Int64.ofNat n).toInt = a.toInt - n := by
  have ha := a.toInt_lt
  have hn : (Int64.ofNat n).toInt = n := Int64.toInt_ofNat_of_lt (by omega)
  rw [Int64.toInt_sub, hn]
  exact Int.bmod_eq_of_le (by omega) (by omega)

theorem read_truncate (r : Reading) (length : ℕ) (piece : Piece) (haction : r.body.action.action = "truncate")
    (hlimit : 0 ≤ r.body.remaining.toInt) :
    ∃ r', r.read length piece = some r' ∧ TruncateCase r length piece r' := by
  unfold Reading.read
  by_cases hlength : length = 0
  · exact ⟨_, if_pos hlength, .empty hlength⟩
  rw [if_neg hlength, if_pos haction]
  by_cases hzero : r.body.remaining = 0
  · rw [if_pos hzero]
    have hread := r.source.read_spec 1 piece
    generalize r.source.read 1 piece = a at hread
    obtain ⟨data, error, source⟩ := a
    simp only at hread ⊢
    by_cases hdata : 0 < data.length
    · rw [if_pos hdata]
      obtain ⟨b, rfl⟩ := List.length_eq_one_iff.mp (le_antisymm hread.room hdata)
      exact ⟨_, rfl, .cut b source hzero hread.moved hread.final⟩
    · rw [if_neg hdata]
      obtain rfl : data = [] := List.length_eq_zero_iff.mp (by omega)
      obtain rfl : source = r.source := Source.ext hread.moved.symm hread.final
      refine ⟨_, rfl, .probe error hzero ?_ ?_⟩
      · exact hread.ended
      · intro hanswers
        exact (hread.answers one_pos hanswers).resolve_left (not_not_intro rfl)
  · have hpositive : 0 < r.body.remaining.toInt := by
      have hne : r.body.remaining.toInt ≠ 0 := by
        intro heq
        exact hzero (Int64.toInt_inj.mp (heq.trans Int64.toInt_zero.symm))
      omega
    have hneg : ¬ r.body.remaining < 0 := by
      rw [Int64.lt_iff_toInt_lt, Int64.toInt_zero]
      omega
    rw [if_neg hzero, if_neg hneg]
    have hread := r.source.read_spec (min (length : ℤ) r.body.remaining.toInt).toNat piece
    generalize r.source.read (min (length : ℤ) r.body.remaining.toInt).toNat piece = a at hread
    obtain ⟨data, error, source⟩ := a
    simp only at hread ⊢
    have hroom : (data.length : ℤ) ≤ r.body.remaining.toInt := by
      have hle := hread.room
      omega
    exact ⟨_, rfl, .pass data error source _ hread rfl (sub_toInt _ _ hroom) hroom hpositive⟩

/-- A body that truncates: what it has delivered, what it has taken off the source after that, and
what the source still has make up the source. -/
structure Truncating (limit : ℕ) (source : Source) (r : Reading) : Prop where
  action : r.body.action.action = "truncate"
  left : r.body.remaining.toInt + (delivered r.log).length = limit
  nonneg : 0 ≤ r.body.remaining.toInt
  final : r.source.final = source.final
  carried : ∃ probed, source.rest = delivered r.log ++ (probed ++ r.source.rest) ∧
    (probed ≠ [] → r.body.remaining = 0) ∧ (.applied ∈ r.log ↔ probed ≠ [])
  seen : .applied ∈ r.log → ¬ Quiet r.log
  marked : ∀ before data after, r.log = before ++ .returned data (some .truncated) :: after →
    .applied ∈ before

theorem quiet_append (a b : List BodyEvent) : Quiet (a ++ b) ↔ Quiet a ∧ Quiet b := by
  simp only [Quiet, List.mem_append, not_or]
  exact ⟨fun h => ⟨fun data e => (h data e).1, fun data e => (h data e).2⟩,
    fun h data e => ⟨h.1 data e, h.2 data e⟩⟩

theorem quiet_returned (data : Bytes) (error : Option BodyError) :
    Quiet [.returned data error] ↔ error = none := by
  cases error with
  | none => simp [Quiet]
  | some e => simp [Quiet]

theorem marked_snoc (log : List BodyEvent) (event : BodyEvent)
    (h : ∀ before data after, log = before ++ .returned data (some .truncated) :: after → .applied ∈ before)
    (hevent : ∀ data, event = .returned data (some .truncated) → .applied ∈ log) :
    ∀ before data after, log ++ [event] = before ++ .returned data (some .truncated) :: after →
      .applied ∈ before := by
  intro before data after heq
  rcases List.eq_nil_or_concat after with rfl | ⟨after, last, rfl⟩
  · have hinj := List.append_inj' heq rfl
    rw [← hinj.1]
    exact hevent data (List.singleton_inj.mp hinj.2)
  · rw [List.concat_eq_append, ← List.cons_append, ← List.append_assoc] at heq
    exact h before data after (List.append_inj' heq rfl).1

theorem truncating_step (limit : ℕ) (source : Source) (r r' : Reading) (length : ℕ) (piece : Piece)
    (h : Truncating limit source r) (hcase : TruncateCase r length piece r') : Truncating limit source r' := by
  obtain ⟨haction, hleft, hnonneg, hfinal, ⟨probed, hcarried, hprobed, happlied⟩, hseen, hmarked⟩ := h
  -- a read that returns no data and is no truncation changes nothing but the log
  have hplain (error : Option String) : Truncating limit source (r.note (.returned [] (error.map .source))) := by
    refine ⟨haction, ?_, hnonneg, hfinal, ⟨probed, ?_, hprobed, ?_⟩, ?_, ?_⟩
    · simpa [Reading.note] using hleft
    · simpa [Reading.note] using hcarried
    · simpa [Reading.note] using happlied
    · intro hmem
      simp only [Reading.note, quiet_append, not_and_or]
      exact .inl (hseen (by simpa [Reading.note] using hmem))
    · exact marked_snoc r.log _ hmarked (by cases error <;> simp)
  cases hcase with
  | empty => exact hplain none
  | probe error => exact hplain error
  | cut b rest hlimit hmoved hrestfinal =>
    refine ⟨haction, ?_, hnonneg, hrestfinal.trans hfinal, ⟨probed ++ [b], ?_, fun _ => hlimit, ?_⟩, ?_, ?_⟩
    · simpa [Reading.note] using hleft
    · simpa [Reading.note, hmoved] using hcarried
    · simp [Reading.note]
    · intro _ hquiet
      exact hquiet [] .truncated (by simp [Reading.note])
    · refine marked_snoc _ _ (marked_snoc r.log _ hmarked (by simp)) ?_
      intro _ _
      exact List.mem_append_right _ (List.mem_singleton_self _)
  | pass data error rest body hread hbody hremaining hroom hpositive =>
    have hnone : probed = [] := by
      by_contra hne
      have hzero := congrArg Int64.toInt (hprobed hne)
      rw [Int64.toInt_zero] at hzero
      omega
    subst hnone
    refine ⟨by rw [← haction, ← hbody]; rfl, ?_, ?_, hread.final.trans hfinal, ⟨[], ?_, ?_, ?_⟩, ?_, ?_⟩
    · simp only [Reading.note, delivered_append, delivered_returned, delivered_nil, List.append_nil,
        List.length_append]
      push_cast
      omega
    · change 0 ≤ body.remaining.toInt
      omega
    · rw [hcarried, hread.moved]
      simp [Reading.note]
    · exact fun hne => absurd rfl hne
    · simpa [Reading.note] using happlied
    · intro hmem
      have hin : .applied ∈ r.log := by simpa [Reading.note] using hmem
      exact absurd rfl (happlied.mp hin)
    · exact marked_snoc r.log _ hmarked (by cases error <;> simp)

theorem truncating_reads (limit : ℕ) (source : Source) (r : Reading) (h : Truncating limit source r)
    (inputs : List (ℕ × Piece)) : ∃ r', r.reads inputs = some r' ∧ Truncating limit source r' := by
  induction inputs generalizing r with
  | nil => exact ⟨r, rfl, h⟩
  | cons i inputs ih =>
    obtain ⟨next, hnext, hcase⟩ := read_truncate r i.1 i.2 h.action h.nonneg
    obtain ⟨r', hr', ht⟩ := ih next (truncating_step limit source r next i.1 i.2 h hcase)
    refine ⟨r', ?_, ht⟩
    rw [Reading.reads, hnext]
    exact hr'

def EndsWith (log : List BodyEvent) (e : BodyError) : Prop :=
  ∃ before data, log = before ++ [.returned data (some e)] ∧ Quiet before

theorem endsWith_snoc (log : List BodyEvent) (data : Bytes) (error : Option BodyError) (e : BodyError)
    (h : EndsWith (log ++ [.returned data error]) e) : Quiet log ∧ error = some e := by
  obtain ⟨before, data', hlog, hquiet⟩ := h
  have hinj := List.append_inj' hlog rfl
  have hevent := BodyEvent.returned.inj (List.singleton_inj.mp hinj.2)
  exact ⟨hinj.1 ▸ hquiet, hevent.2⟩

theorem truncating_quiet (limit : ℕ) (source : Source) (r : Reading) (h : Truncating limit source r)
    (hquiet : Quiet r.log) : source.rest = delivered r.log ++ r.source.rest := by
  obtain ⟨probed, hcarried, _, happlied⟩ := h.carried
  obtain rfl : probed = [] := by
    by_contra hne
    exact h.seen (happlied.mpr hne) hquiet
  exact hcarried

theorem truncating_length (limit : ℕ) (source : Source) (r : Reading) (h : Truncating limit source r)
    (hlimit : r.body.remaining = 0) : (delivered r.log).length = limit := by
  have hleft := h.left
  rw [hlimit, Int64.toInt_zero] at hleft
  omega

/-- The first error of a truncated body: all bytes below the limit have been delivered. -/
theorem truncating_ends (limit : ℕ) (source : Source) (r r' : Reading) (length : ℕ) (piece : Piece)
    (h : Truncating limit source r) (hcase : TruncateCase r length piece r') (e : BodyError)
    (hends : EndsWith r'.log e) : delivered r'.log = source.rest.take limit ∧
      e = if limit < source.rest.length then .truncated else .source source.final := by
  cases hcase with
  | empty => exact absurd (endsWith_snoc _ _ _ _ hends).2 (by simp)
  | probe error hlimit herror =>
    obtain ⟨hquiet, hsome⟩ := endsWith_snoc _ _ _ _ hends
    obtain ⟨m, rfl, rfl⟩ := Option.map_eq_some_iff.mp hsome
    obtain ⟨hrest, rfl⟩ := herror m rfl
    have hsource := truncating_quiet limit source r h hquiet
    rw [hrest, List.append_nil] at hsource
    have hlength := truncating_length limit source r h hlimit
    rw [hsource, if_neg (by omega), h.final]
    simp [Reading.note, ← hlength]
  | cut b rest hlimit hmoved =>
    obtain ⟨hquiet, hsome⟩ := endsWith_snoc _ _ _ _ hends
    have hsource := truncating_quiet limit source r h ((quiet_append _ _).mp hquiet).1
    have hlength := truncating_length limit source r h hlimit
    rw [hmoved] at hsource
    have hmore : limit < source.rest.length := by
      rw [hsource, List.length_append, List.length_cons]
      omega
    rw [if_pos hmore, hsource]
    exact ⟨by simp [Reading.note, ← hlength], (Option.some.inj hsome).symm⟩
  | pass data error rest body hread hbody hremaining hroom hpositive =>
    obtain ⟨hquiet, hsome⟩ := endsWith_snoc _ _ _ _ hends
    obtain ⟨m, rfl, rfl⟩ := Option.map_eq_some_iff.mp hsome
    obtain ⟨hrest, rfl⟩ := hread.ended m rfl
    have hsource := truncating_quiet limit source r h hquiet
    rw [hread.moved, hrest, List.append_nil] at hsource
    have hleft := h.left
    have hle : source.rest.length ≤ limit := by
      rw [hsource, List.length_append]
      omega
    rw [if_neg (by omega), List.take_of_length_le hle, h.final]
    exact ⟨by simp [Reading.note, hsource], rfl⟩

/-- How many of some reads with a buffer that is not empty meet a source that answers. -/
def Reading.busy (r : Reading) : List (ℕ × Piece) → ℕ
  | [] => 0
  | i :: inputs => (if i.1 ≠ 0 ∧ r.source.answers i.2 = true then 1 else 0) +
      ((r.read i.1 i.2).elim 0 (fun r' => r'.busy inputs))

/-- A read that returns no error delivers a byte, unless the buffer is empty or the source silent. -/
structure Progress (r : Reading) (length : ℕ) (piece : Piece) (r' : Reading) : Prop where
  log : r.log <+: r'.log
  bytes : Quiet r'.log → (if length ≠ 0 ∧ r.source.answers piece = true then 1 else 0) +
    (delivered r.log).length ≤ (delivered r'.log).length

theorem quiet_take (a b : List BodyEvent) (h : a <+: b) (hquiet : Quiet b) : Quiet a := by
  obtain ⟨c, rfl⟩ := h
  exact ((quiet_append a c).mp hquiet).1

theorem reads_log (P : Reading → Prop) (hstep : ∀ r length piece r', P r → r.read length piece = some r' →
      P r' ∧ Progress r length piece r') (r r' : Reading) (inputs : List (ℕ × Piece)) (h : P r)
    (hreads : r.reads inputs = some r') : r.log <+: r'.log := by
  induction inputs generalizing r with
  | nil => exact Option.some.inj hreads ▸ List.prefix_refl _
  | cons i inputs ih =>
    obtain ⟨next, hnext, hrest⟩ := Option.bind_eq_some_iff.mp hreads
    obtain ⟨hp, hprogress⟩ := hstep r i.1 i.2 next h hnext
    exact hprogress.log.trans (ih next hp hrest)

/-- As long as no read returns an error, the reads that were answered are at most as many as the
bytes delivered. -/
theorem busy_le (P : Reading → Prop) (hstep : ∀ r length piece r', P r → r.read length piece = some r' →
      P r' ∧ Progress r length piece r') (r r' : Reading) (inputs : List (ℕ × Piece)) (h : P r)
    (hreads : r.reads inputs = some r') (hquiet : Quiet r'.log) :
    r.busy inputs + (delivered r.log).length ≤ (delivered r'.log).length := by
  induction inputs generalizing r with
  | nil => simp [Reading.busy, ← Option.some.inj hreads]
  | cons i inputs ih =>
    obtain ⟨next, hnext, hrest⟩ := Option.bind_eq_some_iff.mp hreads
    obtain ⟨hp, hprogress⟩ := hstep r i.1 i.2 next h hnext
    have hnow := hprogress.bytes (quiet_take _ _ (reads_log P hstep next r' inputs hp hrest) hquiet)
    have hlater := ih next hp hrest
    rw [Reading.busy, hnext, Option.elim_some]
    omega

theorem truncate_progress (r r' : Reading) (length : ℕ) (piece : Piece)
    (hcase : TruncateCase r length piece r') : Progress r length piece r' := by
  cases hcase with
  | empty hlength => exact ⟨List.prefix_append _ _, fun _ => by simp [hlength, Reading.note]⟩
  | cut b rest =>
    refine ⟨⟨_, (List.append_assoc _ _ _).symm⟩, fun hquiet => ?_⟩
    exact absurd (List.mem_append_right _ (List.mem_singleton_self _)) (hquiet [] .truncated)
  | probe error hlimit herror hanswers =>
    refine ⟨List.prefix_append _ _, fun hquiet => ?_⟩
    have hnone := (quiet_returned [] _).mp ((quiet_append _ _).mp hquiet).2
    have hsilent : ¬ r.source.answers piece = true := fun h => hanswers h (Option.map_eq_none_iff.mp hnone)
    simp [hsilent, Reading.note]
  | pass data error rest body hread hbody hremaining hroom hpositive =>
    refine ⟨List.prefix_append _ _, fun hquiet => ?_⟩
    have hnone := (quiet_returned data _).mp ((quiet_append _ _).mp hquiet).2
    split_ifs with hbusy
    · have hsize := (hread.answers (by omega) hbusy.2).resolve_right
        (not_not_intro (Option.map_eq_none_iff.mp hnone))
      have hlength := List.length_pos_iff.mpr hsize
      simp only [Reading.note, delivered_append, delivered_returned, delivered_nil, List.append_nil,
        List.length_append]
      omega
    · simp [Reading.note]

/-- What a body promises that ends after at most `limit` bytes, whatever the reads. -/
structure Truncates (start : Reading) (source : Source) (limit : ℕ) : Prop where
  total : ∀ inputs, (start.reads inputs).isSome
  delivers : ∀ inputs r, start.reads inputs = some r → delivered r.log <+: source.rest.take limit
  ends : ∀ inputs r e, start.reads inputs = some r → EndsWith r.log e →
    delivered r.log = source.rest.take limit ∧
      e = if limit < source.rest.length then .truncated else .source source.final
  progress : ∀ inputs r, start.reads inputs = some r → Quiet r.log →
    start.busy inputs ≤ min source.rest.length limit
  marked : ∀ inputs r before data after, start.reads inputs = some r →
    r.log = before ++ .returned data (some .truncated) :: after → .applied ∈ before
  unmarked : source.rest.length ≤ limit → ∀ inputs r, start.reads inputs = some r → .applied ∉ r.log

theorem truncating_start (f : Fault) (source : Source) (limit : Int64) (haction : f.action = "truncate")
    (hbytes : f.bytes = some limit) (hlimit : 0 ≤ limit) :
    Truncating limit.toInt.toNat source (Reading.start f source) := by
  have hnonneg : 0 ≤ limit.toInt := Int64.le_iff_toInt_le.mp hlimit
  have hremaining : (Reading.start f source).body.remaining = limit := by
    rw [Reading.start, wrapBody, hbytes, Option.getD_some]
  refine ⟨haction, ?_, ?_, rfl, ⟨[], rfl, ?_, ?_⟩, ?_, ?_⟩
  · rw [hremaining]
    simp only [Reading.start, delivered_nil, List.length_nil]
    omega
  · rwa [hremaining]
  · exact fun h => absurd rfl h
  · simp [Reading.start]
  · simp [Reading.start]
  · simp [Reading.start]

theorem truncating_read (limit : ℕ) (source : Source) (r : Reading) (length : ℕ) (piece : Piece) (r' : Reading)
    (h : Truncating limit source r) (hread : r.read length piece = some r') :
    Truncating limit source r' ∧ TruncateCase r length piece r' := by
  obtain ⟨next, hnext, hcase⟩ := read_truncate r length piece h.action h.nonneg
  obtain rfl : next = r' := Option.some.inj (hnext.symm.trans hread)
  exact ⟨truncating_step limit source r next length piece h hcase, hcase⟩

theorem truncating_take (limit : ℕ) (source : Source) (r : Reading) (h : Truncating limit source r) :
    delivered r.log <+: source.rest.take limit := by
  obtain ⟨probed, hcarried, _⟩ := h.carried
  have hleft := h.left
  have hnonneg := h.nonneg
  rw [List.prefix_take_iff]
  exact ⟨⟨_, hcarried.symm⟩, by omega⟩

theorem truncates (limit : ℕ) (source : Source) (start : Reading) (hlog : start.log = [])
    (h : Truncating limit source start) : Truncates start source limit := by
  have hall : ∀ inputs r, start.reads inputs = some r → Truncating limit source r := by
    intro inputs r hreads
    obtain ⟨r', hr', ht⟩ := truncating_reads limit source start h inputs
    exact Option.some.inj (hr'.symm.trans hreads) ▸ ht
  refine ⟨?_, ?_, ?_, ?_, ?_, ?_⟩
  · intro inputs
    obtain ⟨r', hr', _⟩ := truncating_reads limit source start h inputs
    rw [hr']
    rfl
  · exact fun inputs r hreads => truncating_take limit source r (hall inputs r hreads)
  · intro inputs r e hreads hends
    -- the error is of the last read
    rcases List.eq_nil_or_concat inputs with rfl | ⟨earlier, i, rfl⟩
    · obtain ⟨before, data, hnone, _⟩ := hends
      rw [← Option.some.inj hreads, hlog] at hnone
      simp at hnone
    · rw [List.concat_eq_append, reads_snoc] at hreads
      obtain ⟨last, hlast, hread⟩ := Option.bind_eq_some_iff.mp hreads
      have hbefore := hall earlier last hlast
      have hcase := (truncating_read limit source last i.1 i.2 r hbefore hread).2
      exact truncating_ends limit source last r i.1 i.2 hbefore hcase e hends
  · intro inputs r hreads hquiet
    have hbusy := busy_le (Truncating limit source)
      (fun r length piece r' hr hread =>
        have hcase := truncating_read limit source r length piece r' hr hread
        ⟨hcase.1, truncate_progress r r' length piece hcase.2⟩)
      start r inputs h hreads hquiet
    have htake := (truncating_take limit source r (hall inputs r hreads)).length_le
    rw [List.length_take] at htake
    omega
  · exact fun inputs r before data after hreads => (hall inputs r hreads).marked before data after
  · intro hle inputs r hreads hmem
    have hr := hall inputs r hreads
    obtain ⟨probed, hcarried, hprobed, happlied⟩ := hr.carried
    have hne := happlied.mp hmem
    have hlength := truncating_length limit source r hr (hprobed hne)
    have hpos := List.length_pos_iff.mpr hne
    rw [hcarried, List.length_append, List.length_append] at hle
    omega

inductive ThrottleCase (rate : Int64) (r : Reading) (length : ℕ) (piece : Piece) : Reading → Prop
  /-- The buffer is empty. -/
  | empty (h : length = 0) : ThrottleCase rate r length piece (r.note (.returned [] none))
  | pass (data : Bytes) (error : Option String) (source : Source) (events : List BodyEvent)
      (hread : SourceRead r.source (min length (throttleChunk rate)) piece data error source)
      (hlength : length ≠ 0) (hevents : events = [] ∨ events = [.applied]) :
      ThrottleCase rate r length piece
        ((⟨r.body, source, r.log ++ events⟩ : Reading).note (.returned data (error.map .source)))

theorem read_throttle (rate : Int64) (r : Reading) (length : ℕ) (piece : Piece)
    (haction : r.body.action.action ≠ "truncate") (hrate : r.body.action.bytesPerSecond = some rate) :
    ∃ r', r.read length piece = some r' ∧ ThrottleCase rate r length piece r' := by
  unfold Reading.read
  by_cases hlength : length = 0
  · exact ⟨_, if_pos hlength, .empty hlength⟩
  rw [if_neg hlength, if_neg haction, hrate]
  have hread := r.source.read_spec (min length (throttleChunk rate)) piece
  simp only
  generalize r.source.read (min length (throttleChunk rate)) piece = a at hread
  obtain ⟨data, error, source⟩ := a
  refine ⟨_, rfl, ?_⟩
  by_cases hdata : 0 < data.length
  · rw [if_pos hdata]
    exact .pass data error source [.applied] hread hlength (.inr rfl)
  · rw [if_neg hdata]
    have hcase := @ThrottleCase.pass rate r length piece data error source [] hread hlength (.inl rfl)
    rwa [List.append_nil] at hcase

theorem throttleChunk_pos (rate : Int64) : 0 < throttleChunk rate := by
  unfold throttleChunk
  omega

/-- A body that throttles: what it has delivered and what the source still has make up the source. -/
structure Throttling (rate : Int64) (source : Source) (r : Reading) : Prop where
  action : r.body.action.action ≠ "truncate"
  paced : r.body.action.bytesPerSecond = some rate
  final : r.source.final = source.final
  carried : source.rest = delivered r.log ++ r.source.rest
  chunks : ∀ data error, .returned data error ∈ r.log → data.length ≤ throttleChunk rate

theorem delivered_events (events : List BodyEvent) (h : events = [] ∨ events = [.applied]) :
    delivered events = [] := by
  rcases h with rfl | rfl <;> rfl

theorem throttling_read (rate : Int64) (source : Source) (r : Reading) (length : ℕ) (piece : Piece)
    (h : Throttling rate source r) : ∃ r', r.read length piece = some r' ∧
      Throttling rate source r' ∧ ThrottleCase rate r length piece r' := by
  obtain ⟨r', hread, hcase⟩ := read_throttle rate r length piece h.action h.paced
  refine ⟨r', hread, ?_, hcase⟩
  cases hcase with
  | empty =>
    refine ⟨h.action, h.paced, h.final, ?_, ?_⟩
    · simpa [Reading.note] using h.carried
    · intro data error hmem
      rcases List.mem_append.mp hmem with hmem | hmem
      · exact h.chunks data error hmem
      · obtain ⟨rfl, _⟩ := BodyEvent.returned.inj (List.mem_singleton.mp hmem)
        exact Nat.zero_le _
  | pass data error rest events hmoved hlength hevents =>
    refine ⟨h.action, h.paced, hmoved.final.trans h.final, ?_, ?_⟩
    · rw [h.carried, hmoved.moved]
      simp [Reading.note, delivered_events events hevents]
    · intro other error hmem
      rcases List.mem_append.mp hmem with hmem | hmem
      · rcases List.mem_append.mp hmem with hmem | hmem
        · exact h.chunks other error hmem
        · rcases hevents with rfl | rfl <;> simp at hmem
      · obtain ⟨rfl, _⟩ := BodyEvent.returned.inj (List.mem_singleton.mp hmem)
        exact hmoved.room.trans (min_le_right _ _)

theorem throttle_progress (rate : Int64) (r r' : Reading) (length : ℕ) (piece : Piece)
    (hcase : ThrottleCase rate r length piece r') : Progress r length piece r' := by
  cases hcase with
  | empty hlength => exact ⟨List.prefix_append _ _, fun _ => by simp [hlength, Reading.note]⟩
  | pass data error rest events hread hlength hevents =>
    refine ⟨⟨_, (List.append_assoc _ _ _).symm⟩, fun hquiet => ?_⟩
    have hnone := (quiet_returned data _).mp ((quiet_append _ _).mp hquiet).2
    have hchunk := throttleChunk_pos rate
    simp only [Reading.note, delivered_append, delivered_returned, delivered_nil, List.append_nil,
      List.length_append]
    split_ifs with hbusy
    · have hsize := (hread.answers (by omega) hbusy.2).resolve_right
        (not_not_intro (Option.map_eq_none_iff.mp hnone))
      have hpos := List.length_pos_iff.mpr hsize
      omega
    · omega

structure Throttles (start : Reading) (source : Source) (rate : Int64) : Prop where
  total : ∀ inputs, (start.reads inputs).isSome
  delivers : ∀ inputs r, start.reads inputs = some r → delivered r.log <+: source.rest
  ends : ∀ inputs r e, start.reads inputs = some r → EndsWith r.log e →
    delivered r.log = source.rest ∧ e = .source source.final
  progress : ∀ inputs r, start.reads inputs = some r → Quiet r.log →
    start.busy inputs ≤ source.rest.length
  chunks : ∀ inputs r data error, start.reads inputs = some r → .returned data error ∈ r.log →
    (data.length : ℤ) ≤ min 16384 (max 1 (rate / 10).toInt)

theorem throttling_reads (rate : Int64) (source : Source) (r : Reading) (h : Throttling rate source r)
    (inputs : List (ℕ × Piece)) : ∃ r', r.reads inputs = some r' ∧ Throttling rate source r' := by
  induction inputs generalizing r with
  | nil => exact ⟨r, rfl, h⟩
  | cons i inputs ih =>
    obtain ⟨next, hnext, ht, _⟩ := throttling_read rate source r i.1 i.2 h
    obtain ⟨r', hr', hlast⟩ := ih next ht
    refine ⟨r', ?_, hlast⟩
    rw [Reading.reads, hnext]
    exact hr'

theorem throttles (rate : Int64) (source : Source) (start : Reading) (hlog : start.log = [])
    (h : Throttling rate source start) : Throttles start source rate := by
  have hall : ∀ inputs r, start.reads inputs = some r → Throttling rate source r := by
    intro inputs r hreads
    obtain ⟨r', hr', ht⟩ := throttling_reads rate source start h inputs
    exact Option.some.inj (hr'.symm.trans hreads) ▸ ht
  have hstep : ∀ r length piece r', Throttling rate source r → r.read length piece = some r' →
      Throttling rate source r' ∧ ThrottleCase rate r length piece r' := by
    intro r length piece r' hr hread
    obtain ⟨next, hnext, hcase⟩ := throttling_read rate source r length piece hr
    exact Option.some.inj (hnext.symm.trans hread) ▸ hcase
  refine ⟨?_, ?_, ?_, ?_, ?_⟩
  · intro inputs
    obtain ⟨r', hr', _⟩ := throttling_reads rate source start h inputs
    rw [hr']
    rfl
  · exact fun inputs r hreads => ⟨_, (hall inputs r hreads).carried.symm⟩
  · intro inputs r e hreads hends
    rcases List.eq_nil_or_concat inputs with rfl | ⟨earlier, i, rfl⟩
    · obtain ⟨before, data, hnone, _⟩ := hends
      rw [← Option.some.inj hreads, hlog] at hnone
      simp at hnone
    · rw [List.concat_eq_append, reads_snoc] at hreads
      obtain ⟨last, hlast, hread⟩ := Option.bind_eq_some_iff.mp hreads
      have hbefore := hall earlier last hlast
      obtain ⟨hafter, hcase⟩ := hstep last i.1 i.2 r hbefore hread
      cases hcase with
      | empty => exact absurd (endsWith_snoc _ _ _ _ hends).2 (by simp)
      | pass data error rest events hmoved =>
        obtain ⟨m, rfl, rfl⟩ := Option.map_eq_some_iff.mp (endsWith_snoc _ _ _ _ hends).2
        obtain ⟨hrest, rfl⟩ := hmoved.ended m rfl
        have hcarried := hafter.carried
        rw [show (Reading.note ⟨last.body, rest, last.log ++ events⟩ _).source.rest = [] from hrest,
          List.append_nil] at hcarried
        exact ⟨hcarried.symm, congrArg BodyError.source hbefore.final⟩
  · intro inputs r hreads hquiet
    have hbusy := busy_le (Throttling rate source)
      (fun r length piece r' hr hread =>
        have hcase := hstep r length piece r' hr hread
        ⟨hcase.1, throttle_progress rate r r' length piece hcase.2⟩)
      start r inputs h hreads hquiet
    have hlength := congrArg List.length (hall inputs r hreads).carried
    rw [List.length_append] at hlength
    omega
  · intro inputs r data error hreads hmem
    have hchunk := (hall inputs r hreads).chunks data error hmem
    unfold throttleChunk at hchunk
    omega

/-- Truncated and throttled bodies deliver an exact beginning of their source. -/
theorem body_delivers (f : Fault) (source : Source) :
    (∀ limit, f.action = "truncate" → f.bytes = some limit → 0 ≤ limit →
      Truncates (Reading.start f source) source limit.toInt.toNat) ∧
    (∀ rate, f.action = "throttle" → f.bytesPerSecond = some rate →
      Throttles (Reading.start f source) source rate) := by
  refine ⟨?_, ?_⟩
  · intro limit haction hbytes hlimit
    exact truncates _ source _ rfl (truncating_start f source limit haction hbytes hlimit)
  · intro rate haction hrate
    have hother : f.action ≠ "truncate" := by
      rw [haction]
      decide
    exact throttles rate source _ rfl ⟨hother, hrate, rfl, rfl, by simp [Reading.start]⟩

def requestFault (action : String) (bytes bytesPerSecond : Option Int64) : Fault :=
  ⟨"before_upstream_request", action, none, none, none, none, "request", bytes, bytesPerSecond, none, none, ""⟩

theorem body_delivers_three :
    Truncates (Reading.start (requestFault "truncate" (some 2) none) ⟨[97, 98, 99], "EOF"⟩)
      ⟨[97, 98, 99], "EOF"⟩ 2 ∧
    Throttles (Reading.start (requestFault "throttle" none (some 20)) ⟨[97, 98, 99], "EOF"⟩)
      ⟨[97, 98, 99], "EOF"⟩ 20 :=
  ⟨(body_delivers _ _).1 2 rfl rfl (by decide), (body_delivers _ _).2 20 rfl rfl⟩

end Faultline
