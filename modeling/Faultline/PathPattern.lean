import Faultline.ConfigValidate
import Faultline.EngineLaw
import Faultline.Segments

/-! The language of path patterns. Validation accepts a pattern by its segments; a path matches
when it is the pattern with texts put in for the parameters. -/
namespace Faultline

/-- The loop of `matchesPathPattern`: each iteration cuts a segment off the pattern and one off
the path. -/
def patternLoop (pattern path : Bytes) : Bool :=
  let want := (cut 47 pattern).1
  let got := (cut 47 path).1
  if want.head? = some 58 ∧ got = [] then false
  else if want.head? ≠ some 58 ∧ want ≠ got then false
  else
    match _hcut : (cut 47 pattern).2, (cut 47 path).2 with
    | some restPattern, some restPath => patternLoop restPattern restPath
    | none, none => true
    | _, _ => false
termination_by pattern.length
decreasing_by
  have hsplit := cut_some 47 pattern _ restPattern (Prod.ext rfl _hcut)
  have hlen := congrArg List.length hsplit
  simp only [List.length_append, List.length_cons] at hlen
  omega

def parameter : List Char → Option (List Char)
  | ':' :: name => some name
  | _ => none

def parameters (segments : List (List Char)) : List (List Char) := segments.filterMap parameter

def patternParameters (pattern : String) : List (List Char) := parameters (pattern.toList.splitOn '/')

def ParameterName (name : List Char) : Prop :=
  ∃ first more, name = first :: more ∧ (isAlpha first ∨ first = '_') ∧
    ∀ c ∈ more, isAlpha c ∨ c.isDigit ∨ c = '_'

def PatternSegment (segment : List Char) : Prop :=
  ':' ∉ segment ∨ ∃ name, segment = ':' :: name ∧ ParameterName name

structure PathPattern (pattern : String) : Prop where
  rooted : pattern.toList.head? = some '/'
  plain : ∀ c ∈ pattern.toList, c ∉ ['*', '?', '#', '\r', '\n']
  segments : ∀ segment ∈ pattern.toList.splitOn '/', PatternSegment segment
  distinct : (patternParameters pattern).Nodup

def segmentText (text : List Char → Bytes) (segment : List Char) : Bytes :=
  match parameter segment with
  | some name => text name
  | none => segment.flatMap String.utf8EncodeChar

def substitute (text : List Char → Bytes) (pattern : String) : Bytes :=
  [47].intercalate ((pattern.toList.splitOn '/').map (segmentText text))

def Fills (text : Bytes) : Prop := text ≠ [] ∧ 47 ∉ text

def PatternGives (pattern : String) (path : Bytes) : Prop :=
  ∃ text : List Char → Bytes, (∀ name ∈ patternParameters pattern, Fills (text name)) ∧
    substitute text pattern = path

theorem segmentsMatch_nil_right (pattern : List Bytes) (h : pattern ≠ []) :
    segmentsMatch pattern [] = false := by
  cases pattern with
  | nil => exact absurd rfl h
  | cons want rest => rfl

theorem segmentsMatch_nil_left (path : List Bytes) (h : path ≠ []) : segmentsMatch [] path = false := by
  cases path with
  | nil => exact absurd rfl h
  | cons got rest => rfl

theorem matchesPathPattern_cut (pattern path : Bytes) : matchesPathPattern pattern path =
    ((if (cut 47 pattern).1.head? = some 58 then decide ((cut 47 path).1 ≠ [])
        else decide ((cut 47 pattern).1 = (cut 47 path).1)) &&
      match (cut 47 pattern).2, (cut 47 path).2 with
      | some restPattern, some restPath => matchesPathPattern restPattern restPath
      | none, none => true
      | _, _ => false) := by
  unfold matchesPathPattern
  rw [splitOn_cut 47 pattern, splitOn_cut 47 path, segmentsMatch]
  cases (cut 47 pattern).2 with
  | none =>
    cases (cut 47 path).2 with
    | none => rfl
    | some restPath =>
      simp only [Option.elim_none, Option.elim_some]
      rw [segmentsMatch_nil_left _ (List.splitOn_ne_nil _ _)]
  | some restPattern =>
    cases (cut 47 path).2 with
    | none =>
      simp only [Option.elim_none, Option.elim_some]
      rw [segmentsMatch_nil_right _ (List.splitOn_ne_nil _ _)]
    | some restPath => rfl

theorem segment_passes (want got : Bytes) (hparam : ¬ (want.head? = some 58 ∧ got = []))
    (hliteral : ¬ (want.head? ≠ some 58 ∧ want ≠ got)) :
    (if want.head? = some 58 then decide (got ≠ []) else decide (want = got)) = true := by
  by_cases hw : want.head? = some 58
  · simpa [hw] using hparam
  · simpa [hw] using hliteral

theorem patternLoop_eq (pattern path : Bytes) : patternLoop pattern path = matchesPathPattern pattern path := by
  fun_induction patternLoop pattern path with
  | case1 pattern path want got h =>
    rw [matchesPathPattern_cut, if_pos h.1]
    simp [got, h.2]
  | case2 pattern path want got hparam h =>
    rw [matchesPathPattern_cut, if_neg h.1]
    simp [want, got, h.2]
  | case3 pattern path want got hparam hliteral restPattern restPath hpattern hpath ih =>
    rw [matchesPathPattern_cut, segment_passes _ _ hparam hliteral, hpattern, hpath, ih]
    rfl
  | case4 pattern path want got hparam hliteral hpattern hpath =>
    rw [matchesPathPattern_cut, segment_passes _ _ hparam hliteral, hpattern, hpath]
    rfl
  | case5 pattern path want got hparam hliteral hsome hnone =>
    rw [matchesPathPattern_cut, segment_passes _ _ hparam hliteral, Bool.true_and]
    cases hpattern : (cut 47 pattern).2 with
    | none =>
      cases hpath : (cut 47 path).2 with
      | none => exact (hnone hpattern hpath).elim
      | some restPath => rfl
    | some restPattern =>
      cases hpath : (cut 47 path).2 with
      | none => rfl
      | some restPath => exact (hsome restPattern restPath hpattern hpath).elim

/-! What validation accepts. -/

theorem parameterName_iff (first : Char) (more : List Char) : ParameterName (first :: more) ↔
    (isAlpha first || first = '_') = true ∧ more.all (fun c => isAlnum c || c = '_') = true := by
  simp only [ParameterName, Bool.or_eq_true, decide_eq_true_eq, List.all_eq_true, isAlnum, or_assoc]
  constructor
  · rintro ⟨f, m, heq, hfirst, hmore⟩
    obtain ⟨rfl, rfl⟩ := List.cons.inj heq
    exact ⟨hfirst, hmore⟩
  · rintro ⟨hfirst, hmore⟩
    exact ⟨first, more, rfl, hfirst, hmore⟩

theorem parameter_of_notMem (segment : List Char) (h : ':' ∉ segment) : parameter segment = none := by
  unfold parameter
  split
  · exact absurd List.mem_cons_self h
  · rfl

theorem parameters_cons_none (segment : List Char) (segments : List (List Char))
    (h : parameter segment = none) : parameters (segment :: segments) = parameters segments :=
  List.filterMap_cons_none h

theorem parameters_cons_some (segment name : List Char) (segments : List (List Char))
    (h : parameter segment = some name) :
    parameters (segment :: segments) = name :: parameters segments :=
  List.filterMap_cons_some h

theorem patternSegments_parameter (names segments : List (List Char)) (first : Char) (more : List Char) :
    patternSegments names ((':' :: first :: more) :: segments) = true ↔
      ParameterName (first :: more) ∧ first :: more ∉ names ∧
        patternSegments ((first :: more) :: names) segments = true := by
  rw [parameterName_iff, patternSegments, if_neg (not_not_intro List.mem_cons_self)]
  simp only [ite_eq_iff, Bool.or_eq_true, Bool.not_eq_true', Bool.false_eq_true, and_false, false_or]
  rw [not_or, Bool.not_eq_false, Bool.not_eq_false, Bool.or_eq_true (isAlpha first), and_assoc]

theorem patternSegments_other (names segments : List (List Char)) (segment : List Char)
    (h : ':' ∈ segment) (hother : ∀ first more, segment ≠ ':' :: first :: more) :
    patternSegments names (segment :: segments) = false := by
  rw [patternSegments, if_neg (not_not_intro h)]
  exact hother

theorem patternSegments_literal (names segments : List (List Char)) (segment : List Char)
    (h : ':' ∉ segment) : patternSegments names (segment :: segments) = patternSegments names segments := by
  rw [patternSegments, if_pos h]
  rintro first more rfl
  exact h List.mem_cons_self

theorem patternSegments_iff (names segments : List (List Char)) : patternSegments names segments = true ↔
    (∀ segment ∈ segments, PatternSegment segment) ∧ (parameters segments).Nodup ∧
      ∀ name ∈ parameters segments, name ∉ names := by
  induction segments generalizing names with
  | nil => simp [patternSegments, parameters]
  | cons segment segments ih =>
    rw [List.forall_mem_cons]
    by_cases hc : ':' ∈ segment
    · by_cases hform : ∃ first more, segment = ':' :: first :: more
      · obtain ⟨first, more, rfl⟩ := hform
        have hsegment : PatternSegment (':' :: first :: more) ↔ ParameterName (first :: more) := by
          constructor
          · rintro (hnot | ⟨name, heq, hname⟩)
            · exact absurd hc hnot
            · rwa [(List.cons.inj heq).2]
          · exact fun hname => .inr ⟨_, rfl, hname⟩
        rw [patternSegments_parameter, ih, hsegment, parameters_cons_some _ (first :: more) _ rfl,
          List.nodup_cons, List.forall_mem_cons]
        -- a later name is neither this one nor one seen before
        have hlater : (∀ name ∈ parameters segments, name ∉ (first :: more) :: names) ↔
            first :: more ∉ parameters segments ∧ ∀ name ∈ parameters segments, name ∉ names := by
          constructor
          · intro h
            refine ⟨fun hmem => h _ hmem List.mem_cons_self, ?_⟩
            exact fun name hmem hseen => h name hmem (List.mem_cons_of_mem _ hseen)
          · rintro ⟨hthis, hseen⟩ name hmem hin
            rcases List.mem_cons.mp hin with rfl | hin
            · exact hthis hmem
            · exact hseen name hmem hin
        rw [hlater]
        tauto
      · push Not at hform
        rw [patternSegments_other names segments segment hc hform]
        refine iff_of_false Bool.false_ne_true ?_
        rintro ⟨⟨hsegment, -⟩, -⟩
        rcases hsegment with hnot | ⟨name, rfl, first, more, rfl, -⟩
        · exact hnot hc
        · exact hform first more rfl
    · rw [patternSegments_literal names segments segment hc, ih, parameters_cons_none _ _ (parameter_of_notMem segment hc)]
      have hsegment : PatternSegment segment := .inl hc
      simp only [hsegment, true_and]

theorem containsAny_eq_false (s chars : String) :
    containsAny s chars = false ↔ ∀ c ∈ s.toList, c ∉ chars.toList := by
  simp [containsAny]

theorem validPathPattern_iff (pattern : String) : validPathPattern pattern = true ↔ PathPattern pattern := by
  have hchars : "*?#\r\n".toList = ['*', '?', '#', '\r', '\n'] := by decide
  unfold validPathPattern
  constructor
  · intro h
    split_ifs at h with hbad
    simp only [Bool.or_eq_true, decide_eq_true_eq, not_or, not_not, Bool.not_eq_true,
      containsAny_eq_false, hchars] at hbad
    obtain ⟨hsegments, hdistinct, -⟩ := (patternSegments_iff [] _).mp h
    exact ⟨hbad.1, hbad.2, hsegments, hdistinct⟩
  · rintro ⟨hrooted, hplain, hsegments, hdistinct⟩
    have hgood : ¬ (decide (pattern.toList.head? ≠ some '/') || containsAny pattern "*?#\r\n") = true := by
      simp only [Bool.or_eq_true, decide_eq_true_eq, not_or, not_not, Bool.not_eq_true,
        containsAny_eq_false, hchars]
      exact ⟨hrooted, hplain⟩
    rw [if_neg hgood]
    exact (patternSegments_iff [] _).mpr ⟨hsegments, hdistinct, fun _ _ => List.not_mem_nil⟩

/-! What a pattern matches. -/

def segmentBytes (segment : List Char) : Bytes := segment.flatMap String.utf8EncodeChar

theorem slash_notMem (c : Char) (hc : c ≠ '/') : 47 ∉ String.utf8EncodeChar c := by
  intro hmem
  exact hc ((mem_utf8EncodeChar_iff '/' c (by decide)).mp hmem)

theorem splitOn_bytesOf (pattern : String) :
    (bytesOf pattern).splitOn 47 = (pattern.toList.splitOn '/').map segmentBytes := by
  have hbytes : bytesOf pattern = pattern.toList.flatMap String.utf8EncodeChar := by
    rw [← bytesOf_ofList, String.ofList_toList]
  rw [hbytes]
  exact splitOn_flatMap String.utf8EncodeChar '/' 47 rfl slash_notMem _

theorem slash_notMem_segmentBytes (segment : List Char) (h : '/' ∉ segment) : 47 ∉ segmentBytes segment := by
  intro hmem
  obtain ⟨c, hc, hin⟩ := List.mem_flatMap.mp hmem
  exact slash_notMem c (fun heq => h (heq ▸ hc)) hin

theorem head_segmentBytes (segment : List Char) :
    (segmentBytes segment).head? = some 58 ↔ (parameter segment).isSome := by
  cases segment with
  | nil => simp [segmentBytes, parameter]
  | cons c segment =>
    have hhead : (segmentBytes (c :: segment)).head? = (String.utf8EncodeChar c).head? := by
      rw [segmentBytes, List.flatMap_cons, List.head?_append_of_ne_nil _ String.utf8EncodeChar_ne_nil]
    rw [hhead]
    by_cases hc : c = ':'
    · subst hc
      exact iff_of_true rfl rfl
    · refine iff_of_false ?_ ?_
      · intro hsome
        have hmem := List.mem_of_mem_head? hsome
        exact hc ((mem_utf8EncodeChar_iff ':' c (by decide)).mp hmem)
      · unfold parameter
        split
        · rename_i heq
          exact absurd (List.cons.inj heq).1 hc
        · exact Bool.false_ne_true

def SegmentMatches (want got : Bytes) : Prop :=
  if want.head? = some 58 then got ≠ [] else want = got

theorem segmentMatches_parameter (segment name : List Char) (got : Bytes) (h : parameter segment = some name) :
    SegmentMatches (segmentBytes segment) got ↔ got ≠ [] := by
  have hhead : (segmentBytes segment).head? = some 58 := by
    rw [head_segmentBytes, h]
    rfl
  rw [SegmentMatches, if_pos hhead]

theorem segmentMatches_literal (segment : List Char) (got : Bytes) (h : parameter segment = none) :
    SegmentMatches (segmentBytes segment) got ↔ segmentBytes segment = got := by
  have hhead : ¬ (segmentBytes segment).head? = some 58 := by
    rw [head_segmentBytes, h]
    exact Bool.false_ne_true
  rw [SegmentMatches, if_neg hhead]

theorem segmentMatches_text (text : List Char → Bytes) (segment : List Char)
    (h : ∀ name, parameter segment = some name → Fills (text name)) :
    SegmentMatches (segmentBytes segment) (segmentText text segment) := by
  unfold segmentText
  cases hparam : parameter segment with
  | none => exact (segmentMatches_literal segment _ hparam).mpr rfl
  | some name => exact (segmentMatches_parameter segment name _ hparam).mpr (h name hparam).1

theorem segmentText_update (text : List Char → Bytes) (name : List Char) (got : Bytes)
    (segments : List (List Char)) (h : name ∉ parameters segments) :
    segments.map (segmentText (Function.update text name got)) = segments.map (segmentText text) := by
  apply List.map_congr_left
  intro segment hmem
  unfold segmentText
  cases hparam : parameter segment with
  | none => rfl
  | some other =>
    have hin : other ∈ parameters segments := List.mem_filterMap.mpr ⟨segment, hmem, hparam⟩
    have hne : other ≠ name := fun heq => h (heq ▸ hin)
    exact Function.update_of_ne hne _ _

/-- Segments that match are texts put in for the parameters: since the names differ, each one is
given the segment it matched. -/
theorem exists_texts (segments : List (List Char)) (gots : List Bytes)
    (hdistinct : (parameters segments).Nodup) (hslash : ∀ got ∈ gots, 47 ∉ got)
    (h : List.Forall₂ SegmentMatches (segments.map segmentBytes) gots) :
    ∃ text : List Char → Bytes, (∀ name ∈ parameters segments, Fills (text name)) ∧
      segments.map (segmentText text) = gots := by
  induction segments generalizing gots with
  | nil =>
    cases h
    exact ⟨fun _ => [], by simp [parameters], rfl⟩
  | cons segment segments ih =>
    cases h with
    | @cons _ got _ gots hmatch hrest =>
      obtain ⟨hgot, hgots⟩ := List.forall_mem_cons.mp hslash
      cases hparam : parameter segment with
      | none =>
        rw [parameters_cons_none segment segments hparam] at hdistinct ⊢
        obtain ⟨text, hfills, htexts⟩ := ih gots hdistinct hgots hrest
        refine ⟨text, hfills, ?_⟩
        have hliteral : segmentText text segment = got := by
          unfold segmentText
          rw [hparam]
          exact (segmentMatches_literal segment got hparam).mp hmatch
        rw [List.map_cons, hliteral, htexts]
      | some name =>
        rw [parameters_cons_some segment name segments hparam] at hdistinct ⊢
        obtain ⟨hnew, hdistinct⟩ := List.nodup_cons.mp hdistinct
        obtain ⟨text, hfills, htexts⟩ := ih gots hdistinct hgots hrest
        have hne : got ≠ [] := (segmentMatches_parameter segment name got hparam).mp hmatch
        refine ⟨Function.update text name got, ?_, ?_⟩
        · intro other hother
          by_cases heq : other = name
          · rw [heq, Function.update_self]
            exact ⟨hne, hgot⟩
          · rw [Function.update_of_ne heq]
            exact hfills other ((List.mem_cons.mp hother).resolve_left heq)
        · have hthis : segmentText (Function.update text name got) segment = got := by
            unfold segmentText
            rw [hparam]
            exact Function.update_self _ _ _
          rw [List.map_cons, hthis, segmentText_update text name got segments hnew, htexts]

theorem splitOn_substitute (text : List Char → Bytes) (pattern : String)
    (hfills : ∀ name ∈ patternParameters pattern, Fills (text name)) :
    (substitute text pattern).splitOn 47 = (pattern.toList.splitOn '/').map (segmentText text) := by
  refine List.splitOn_intercalate 47 ?_ (by simp [List.splitOn_ne_nil])
  intro got hgot
  obtain ⟨segment, hmem, rfl⟩ := List.mem_map.mp hgot
  unfold segmentText
  cases hparam : parameter segment with
  | none => exact slash_notMem_segmentBytes segment (splitOn_notMem '/' _ segment hmem)
  | some name => exact (hfills name (List.mem_filterMap.mpr ⟨segment, hmem, hparam⟩)).2

theorem matchesPathPattern_iff (pattern : String) (h : PathPattern pattern) (path : Bytes) :
    matchesPathPattern (bytesOf pattern) path = true ↔ PatternGives pattern path := by
  rw [matchesPathPattern, segmentsMatch_iff, splitOn_bytesOf]
  constructor
  · intro hmatch
    obtain ⟨text, hfills, htexts⟩ := exists_texts _ (path.splitOn 47) h.distinct
      (splitOn_notMem 47 path) hmatch
    refine ⟨text, hfills, ?_⟩
    rw [substitute, htexts]
    exact List.intercalate_splitOn 47
  · rintro ⟨text, hfills, rfl⟩
    rw [splitOn_substitute text pattern hfills, List.forall₂_map_left_iff, List.forall₂_map_right_iff,
      List.forall₂_same]
    intro segment hmem
    refine segmentMatches_text text segment ?_
    intro name hname
    exact hfills name (List.mem_filterMap.mpr ⟨segment, hmem, hname⟩)

/-- Validation accepts the path patterns and no other text; the loop of the matcher, which always
ends, matches exactly the paths that a pattern gives with some text for each parameter. -/
theorem path_pattern_language (pattern : String) :
    (validPathPattern pattern = true ↔ PathPattern pattern) ∧
      ∀ path, patternLoop (bytesOf pattern) path = matchesPathPattern (bytesOf pattern) path ∧
        (validPathPattern pattern = true →
          (patternLoop (bytesOf pattern) path = true ↔ PatternGives pattern path)) := by
  refine ⟨validPathPattern_iff pattern, fun path => ⟨patternLoop_eq _ path, ?_⟩⟩
  intro hvalid
  rw [patternLoop_eq]
  exact matchesPathPattern_iff pattern ((validPathPattern_iff pattern).mp hvalid) path

end Faultline
