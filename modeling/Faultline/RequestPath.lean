import Faultline.Executable
import Faultline.PathPattern

/-! From the target of a request to the path condition of a rule. `net/url` takes the query off
the target and decodes what is left; the engine takes a query off once more, and what it finds
there is an encoded question mark of the path. -/
namespace Faultline.HTTP

def isHexByte (b : UInt8) : Bool := isHexDigit (Char.ofNat b.toNat)

def hexByte (a b : UInt8) : UInt8 :=
  UInt8.ofNat (unhex (Char.ofNat a.toNat)*16 + unhex (Char.ofNat b.toNat))

/-- `unescape` of `net/url` for a path. -/
def unescapePath : Bytes → Option Bytes
  | [] => some []
  | c :: s =>
    if c = 37 then
      match s with
      | a :: b :: t => if isHexByte a && isHexByte b then (unescapePath t).map (hexByte a b :: ·) else none
      | _ => none
    else (unescapePath s).map (c :: ·)

/-- The `Path` that `url.ParseRequestURI` gives for a target. A target that is neither an
asterisk nor starts with a slash has a scheme, which the handler refuses, or is no URI. -/
def requestPath (target : Bytes) : Option Bytes :=
  if target.any (fun b => b < 32 || b = 127) then none
  else if target = [42] then some [42]
  else if target.head? ≠ some 47 then none
  else unescapePath (cut 63 target).1

/-- What the metadata of a request is made of. Header names are canonical. -/
structure Incoming where
  protoMajor : ℕ
  method : Bytes
  target : Bytes
  headers : List (Bytes × List Bytes)

/-- `Header.Get`. -/
def Incoming.header (r : Incoming) (name : String) : Bytes :=
  ((r.headers.find? (fun h => h.1 = bytesOf name)).bind (fun h => h.2.head?)).getD []

/-- `grpcproxy.Metadata`, when the request is valid. -/
def grpcMetadata (r : Incoming) (path : Bytes) : Option Metadata :=
  let content := (cut 59 (r.header "Content-Type")).1
  match cut 47 (if path.head? = some 47 then path.tail else path) with
  | (_, none) => none
  | (service, some method) =>
    if r.protoMajor = 2 ∧ r.method = bytesOf "POST" ∧
        (content = bytesOf "application/grpc" ∨ (bytesOf "application/grpc+").isPrefixOf content) ∧
        service ≠ [] ∧ method ≠ [] ∧ 47 ∉ method then
      some ⟨method, service, path, r.headers⟩
    else none

def handlerMetadata (protocol : String) (r : Incoming) : Option Metadata :=
  match requestPath r.target with
  | none => none
  | some path => if protocol = "grpc" then grpcMetadata r path else some ⟨r.method, [], path, r.headers⟩

/-- The path conditions of a matcher, as `matches` has them. -/
def pathCondition (m : Matcher) (metadata : Metadata) : Bool :=
  let path := (cut 63 metadata.path).1
  (m.path = "" || bytesOf m.path = path) &&
    (m.pathPattern = "" || matchesPathPattern (bytesOf m.pathPattern) path)

theorem matcherMatches_path (m : Matcher) (metadata : Metadata) : matcherMatches m metadata =
    (pathCondition m metadata && matcherMatches { m with path := "", pathPattern := "" } metadata) := by
  rw [Bool.eq_iff_iff, Bool.and_eq_true, matcherMatches_iff, matcherMatches_iff]
  simp only [pathCondition, matchesPathPattern, Bool.and_eq_true, Bool.or_eq_true, decide_eq_true_eq,
    segmentsMatch_iff]
  constructor
  · rintro ⟨hservice, hmethod, hpath, hpattern, hheaders⟩
    refine ⟨⟨or_iff_not_imp_left.mpr hpath, or_iff_not_imp_left.mpr hpattern⟩, ?_⟩
    exact ⟨hservice, hmethod, fun h => absurd rfl h, fun h => absurd rfl h, hheaders⟩
  · rintro ⟨⟨hpath, hpattern⟩, hservice, hmethod, -, -, hheaders⟩
    exact ⟨hservice, hmethod, or_iff_not_imp_left.mp hpath, or_iff_not_imp_left.mp hpattern, hheaders⟩

structure PathFields (m : Matcher) : Prop where
  exact : m.path ≠ "" → '?' ∉ m.path.toList
  apart : m.pathPattern ≠ "" → m.path = ""
  pattern : m.pathPattern ≠ "" → PathPattern m.pathPattern

theorem validateRule_pathFields (r r' : Rule) (place : String) (h : validateRule r place = .ok r') :
    PathFields r'.matcher := by
  simp only [validateRule, bind_eq_ok, reject_eq_ok, exists_const, pure_eq_ok] at h
  obtain ⟨-, hpath, happart, hpattern, headers, -, select, -, u, -, rfl⟩ := h
  refine ⟨?_, ?_, ?_⟩
  · intro hne hmem
    apply hpath
    refine ⟨hne, .inr ?_⟩
    rw [containsAny, List.any_eq_true]
    exact ⟨'?', hmem, by decide⟩
  · intro hne
    by_contra hboth
    exact happart ⟨hne, hboth⟩
  · intro hne
    rw [← validPathPattern_iff]
    by_contra hbad
    exact hpattern ⟨hne, hbad⟩

theorem validateProxyRule_pathFields (protocol : String) (r r' : Rule) (place : String)
    (hhttp : isHTTP protocol = true) (h : validateProxyRule protocol r place = .ok r') :
    PathFields r'.matcher := by
  obtain ⟨hdatabase, htcp⟩ := isHTTP_other protocol hhttp
  simp only [validateProxyRule, bind_eq_ok, reject_eq_ok, exists_const] at h
  obtain ⟨-, -, -, -, h⟩ := h
  rw [if_neg (by simp [hdatabase]), if_neg htcp] at h
  exact validateRule_pathFields r r' place h

theorem handlerMetadata_path (protocol : String) (r : Incoming) (metadata : Metadata)
    (h : handlerMetadata protocol r = some metadata) : requestPath r.target = some metadata.path := by
  unfold handlerMetadata at h
  cases hpath : requestPath r.target with
  | none => simp [hpath] at h
  | some path =>
    simp only [hpath] at h
    split_ifs at h
    · unfold grpcMetadata at h
      simp only at h
      split at h
      · cases h
      · split_ifs at h
        obtain rfl := Option.some.inj h
        rfl
    · obtain rfl := Option.some.inj h
      rfl

/-- The path conditions of a matcher follow a path: the exact one compares the whole of it, and
the pattern matches the whole of it. -/
structure FollowsPath (m : Matcher) (metadata : Metadata) (path : Bytes) : Prop where
  exact : m.path ≠ "" → (pathCondition m metadata = true ↔ path = bytesOf m.path)
  pattern : m.pathPattern ≠ "" → (pathCondition m metadata = true ↔ PatternGives m.pathPattern path)

def endsInParameter (pattern : String) : Bool :=
  ((pattern.toList.splitOn '/').getLast?.bind parameter).isSome

/-- A pattern does not tell a path from what stands before the first question mark of it. With a
slash after the question mark, neither may match. Otherwise only the last segments differ: a
literal may not match the one before the question mark, and a parameter has to find it nonempty. -/
def PatternAgrees (pattern : String) (before after : Bytes) : Prop :=
  if 47 ∈ after then ¬ PatternGives pattern before ∧ ¬ PatternGives pattern (before ++ 63 :: after)
  else if endsInParameter pattern then
    before.getLast? = some 47 → ¬ PatternGives pattern (before ++ 63 :: after)
  else ¬ PatternGives pattern before

/-- A path without question marks, or one on which the matcher does not depend on them. -/
structure Undisturbed (m : Matcher) (path : Bytes) : Prop where
  exact : m.path ≠ "" → ∀ after, path ≠ bytesOf m.path ++ 63 :: after
  pattern : m.pathPattern ≠ "" → ∀ before after, path = before ++ 63 :: after → 63 ∉ before →
    PatternAgrees m.pathPattern before after

theorem question_notMem (s : List Char) (h : '?' ∉ s) : 63 ∉ segmentBytes s := by
  intro hmem
  obtain ⟨c, hc, hin⟩ := List.mem_flatMap.mp hmem
  have heq : c = '?' := (mem_utf8EncodeChar_iff '?' c (by decide)).mp hin
  exact h (heq ▸ hc)

theorem bytesOf_eq_segmentBytes (s : String) : bytesOf s = segmentBytes s.toList := by
  rw [segmentBytes, ← bytesOf_ofList, String.ofList_toList]

theorem exact_iff (x path : Bytes) (hx : 63 ∉ x) :
    ((x = (cut 63 path).1 ↔ path = x) ↔ ∀ after, path ≠ x ++ 63 :: after) := by
  by_cases hmem : 63 ∈ path
  · obtain ⟨before, rest, rfl, hbefore⟩ := List.eq_append_cons_of_mem hmem
    rw [cut_append 63 before rest hbefore]
    have hne : before ++ 63 :: rest ≠ x := by
      rintro rfl
      exact hx hmem
    constructor
    · intro h after heq
      have hcut := congrArg (cut 63) heq
      rw [cut_append 63 before rest hbefore, cut_append 63 x after hx] at hcut
      exact hne (h.mp (congrArg Prod.fst hcut).symm)
    · intro h
      refine iff_of_false ?_ hne
      rintro rfl
      exact h rest rfl
  · rw [cut_of_notMem 63 path hmem]
    refine iff_of_true eq_comm ?_
    rintro after rfl
    exact hmem (by simp)

theorem forall₂_concat {α β : Type} (R : α → β → Prop) (xs : List α) (ys : List β) (x : α) (y : β) :
    List.Forall₂ R (xs ++ [x]) (ys ++ [y]) ↔ List.Forall₂ R xs ys ∧ R x y := by
  rw [← List.forall₂_reverse_iff, List.reverse_concat, List.reverse_concat, List.forall₂_cons,
    List.forall₂_reverse_iff, and_comm]

theorem patternGives_rooted (pattern : String) (h : PathPattern pattern) (path : Bytes)
    (hgives : PatternGives pattern path) : path.head? = some 47 := by
  obtain ⟨text, -, rfl⟩ := hgives
  obtain ⟨rest, hrest⟩ := List.head?_eq_some_iff.mp h.rooted
  obtain ⟨segment, segments, hsplit⟩ := List.exists_cons_of_ne_nil (List.splitOn_ne_nil '/' rest)
  have hsegments : pattern.toList.splitOn '/' = [] :: segment :: segments := by
    rw [hrest, List.splitOn_cons_eq_if_modifyHead, hsplit]
    rfl
  rw [substitute, hsegments]
  rfl

theorem patternAgrees_last (segments : List (List Char)) (segment : List Char) (as : List Bytes) (a after : Bytes)
    (h : '?' ∉ segment) :
    ((List.Forall₂ SegmentMatches ((segments ++ [segment]).map segmentBytes) (as ++ [a]) ↔
        List.Forall₂ SegmentMatches ((segments ++ [segment]).map segmentBytes) (as ++ [a ++ 63 :: after])) ↔
      if (parameter segment).isSome then a = [] →
        ¬ List.Forall₂ SegmentMatches ((segments ++ [segment]).map segmentBytes) (as ++ [a ++ 63 :: after])
      else ¬ List.Forall₂ SegmentMatches ((segments ++ [segment]).map segmentBytes) (as ++ [a])) := by
  simp only [List.map_append, List.map_singleton, forall₂_concat]
  cases hparam : parameter segment with
  | none =>
    -- a literal has no question mark, so it never matches the longer segment
    have hlong : ¬ SegmentMatches (segmentBytes segment) (a ++ 63 :: after) := by
      rw [segmentMatches_literal segment _ hparam]
      intro heq
      apply question_notMem segment h
      simp [heq]
    simp [hlong]
  | some name =>
    have hlong : SegmentMatches (segmentBytes segment) (a ++ 63 :: after) := by
      rw [segmentMatches_parameter segment name _ hparam]
      simp
    simp only [hlong, and_true, segmentMatches_parameter segment name _ hparam, Option.isSome_some, if_true]
    tauto

theorem pattern_iff (pattern : String) (h : PathPattern pattern) (before after : Bytes) :
    ((PatternGives pattern before ↔ PatternGives pattern (before ++ 63 :: after)) ↔
      PatternAgrees pattern before after) := by
  obtain ⟨segments, segment, hpattern⟩ : ∃ segments segment, pattern.toList.splitOn '/' = segments ++ [segment] :=
    ⟨_, _, (List.dropLast_append_getLast (List.splitOn_ne_nil '/' _)).symm⟩
  obtain ⟨as, a, hbefore⟩ : ∃ as a, before.splitOn 47 = as ++ [a] :=
    ⟨_, _, (List.dropLast_append_getLast (List.splitOn_ne_nil 47 before)).symm⟩
  have hwhole (b : Bytes) (bs : List Bytes) (hafter : after.splitOn 47 = b :: bs) :
      (before ++ 63 :: after).splitOn 47 = as ++ (a ++ 63 :: b) :: bs := by
    refine splitOn_join 47 before (63 :: after) a (63 :: b) as bs hbefore ?_
    rw [List.splitOn_cons_eq_if_modifyHead, hafter]
    rfl
  have hgives (path : Bytes) : PatternGives pattern path ↔
      List.Forall₂ SegmentMatches ((segments ++ [segment]).map segmentBytes) (path.splitOn 47) := by
    rw [← matchesPathPattern_iff pattern h, matchesPathPattern, segmentsMatch_iff, splitOn_bytesOf, hpattern]
    rfl
  unfold PatternAgrees
  by_cases hslash : 47 ∈ after
  · -- the two differ in the number of segments, so a pattern matches at most one of them
    rw [if_pos hslash]
    obtain ⟨b, bs, hafter, hbs⟩ := splitOn_of_mem 47 after hslash
    have hnot : ¬ (PatternGives pattern before ∧ PatternGives pattern (before ++ 63 :: after)) := by
      rintro ⟨hone, htwo⟩
      have hlen := ((hgives before).mp hone).length_eq
      have hlen' := ((hgives _).mp htwo).length_eq
      rw [hbefore] at hlen
      rw [hwhole b bs hafter] at hlen'
      have hpos := List.length_pos_iff.mpr hbs
      simp only [List.length_append, List.length_cons, List.length_nil] at hlen hlen'
      omega
    tauto
  · rw [if_neg hslash]
    have hends : endsInParameter pattern = (parameter segment).isSome := by
      rw [endsInParameter, hpattern, List.getLast?_concat]
      rfl
    have hplain : '?' ∉ segment := by
      intro hmem
      have hin : segment ∈ pattern.toList.splitOn '/' := by simp [hpattern]
      exact h.plain '?' (mem_of_mem_splitOn '/' _ segment hin '?' hmem) (by decide)
    have hlast : PatternGives pattern (before ++ 63 :: after) → (a = [] ↔ before.getLast? = some 47) := by
      intro hmatch
      refine last_segment_eq_nil 47 before a as hbefore ?_
      rintro rfl
      have hroot := patternGives_rooted pattern h _ hmatch
      exact absurd hroot (by simp)
    have hafter := hwhole after [] (splitOn_of_notMem 47 after hslash)
    have hcore := patternAgrees_last segments segment as a after hplain
    rw [← hbefore, ← hafter, ← hgives, ← hgives] at hcore
    rw [hcore, hends]
    split_ifs with hparam
    · constructor
      · exact fun himp hend hmatch => himp ((hlast hmatch).mpr hend) hmatch
      · exact fun himp hnil hmatch => himp ((hlast hmatch).mp hnil) hmatch
    · rfl

/-- The path conditions of a validated rule follow the decoded path of a request exactly when the
path has no question mark on which the rule depends. -/
theorem decoded_path_matching (protocol place : String) (r rule : Rule) (hhttp : isHTTP protocol = true)
    (hrule : validateProxyRule protocol r place = .ok rule) (request : Incoming) (metadata : Metadata)
    (hmetadata : handlerMetadata protocol request = some metadata) (path : Bytes)
    (hpath : requestPath request.target = some path) :
    FollowsPath rule.matcher metadata path ↔ Undisturbed rule.matcher path := by
  have hfields := validateProxyRule_pathFields protocol r rule place hhttp hrule
  obtain rfl : metadata.path = path := by
    have hsame := handlerMetadata_path protocol request metadata hmetadata
    exact Option.some.inj (hsame.symm.trans hpath)
  -- at most one of the two conditions is there
  have hexact (hne : rule.matcher.path ≠ "") : pathCondition rule.matcher metadata = true ↔
      bytesOf rule.matcher.path = (cut 63 metadata.path).1 := by
    have hpattern : rule.matcher.pathPattern = "" := by
      by_contra hboth
      exact hne (hfields.apart hboth)
    simp [pathCondition, hne, hpattern]
  have hgives (hne : rule.matcher.pathPattern ≠ "") : pathCondition rule.matcher metadata = true ↔
      PatternGives rule.matcher.pathPattern (cut 63 metadata.path).1 := by
    rw [← matchesPathPattern_iff _ (hfields.pattern hne)]
    simp [pathCondition, hne, hfields.apart hne]
  have hfirst (hne : rule.matcher.path ≠ "") :
      (pathCondition rule.matcher metadata = true ↔ metadata.path = bytesOf rule.matcher.path) ↔
        ∀ after, metadata.path ≠ bytesOf rule.matcher.path ++ 63 :: after := by
    rw [hexact hne]
    apply exact_iff
    rw [bytesOf_eq_segmentBytes]
    exact question_notMem _ (hfields.exact hne)
  have hsecond (hne : rule.matcher.pathPattern ≠ "") :
      (pathCondition rule.matcher metadata = true ↔ PatternGives rule.matcher.pathPattern metadata.path) ↔
        ∀ before after, metadata.path = before ++ 63 :: after → 63 ∉ before →
          PatternAgrees rule.matcher.pathPattern before after := by
    rw [hgives hne]
    constructor
    · intro h before after heq hbefore
      rw [heq, cut_append 63 before after hbefore] at h
      exact (pattern_iff _ (hfields.pattern hne) before after).mp h
    · intro h
      by_cases hmem : 63 ∈ metadata.path
      · obtain ⟨before, after, heq, hbefore⟩ := List.eq_append_cons_of_mem hmem
        rw [heq, cut_append 63 before after hbefore]
        exact (pattern_iff _ (hfields.pattern hne) before after).mpr (h before after heq hbefore)
      · rw [cut_of_notMem 63 metadata.path hmem]
  constructor
  · rintro ⟨hone, htwo⟩
    exact ⟨fun hne => (hfirst hne).mp (hone hne), fun hne => (hsecond hne).mp (htwo hne)⟩
  · rintro ⟨hone, htwo⟩
    exact ⟨fun hne => (hfirst hne).mpr (hone hne), fun hne => (hsecond hne).mpr (htwo hne)⟩

def exactRule : Rule :=
  { sampleRule "pay" ⟨none, some 1, none⟩ with
    matcher := { Matcher.zero with path := "/pay", headers := some ∅ } }

def getRequest (target : String) : Incoming := ⟨1, bytesOf "GET", bytesOf target, []⟩

/-- A query is no part of the path, so the rule follows it. -/
theorem decoded_path_matching_query :
    ∃ metadata, handlerMetadata "http1" (getRequest "/pay?x=1") = some metadata ∧
      FollowsPath exactRule.matcher metadata (bytesOf "/pay") := by
  refine ⟨⟨bytesOf "GET", [], bytesOf "/pay", []⟩, by decide +kernel, ?_⟩
  refine (decoded_path_matching "http1" "" exactRule exactRule (by decide) (by decide +kernel)
    (getRequest "/pay?x=1") _ (by decide +kernel) (bytesOf "/pay") (by decide +kernel)).mpr ⟨?_, ?_⟩
  · intro _ after heq
    have hlen := congrArg List.length heq
    simp [exactRule] at hlen
  · exact fun hne => absurd rfl hne

/-- An encoded question mark is part of the path, but the rule takes it for a query. -/
theorem encoded_question_mark :
    validateProxyRule "http1" exactRule "" = .ok exactRule ∧
      requestPath (getRequest "/pay%3Fx").target = some (bytesOf "/pay?x") ∧
      ∃ metadata, handlerMetadata "http1" (getRequest "/pay%3Fx") = some metadata ∧
        pathCondition exactRule.matcher metadata = true ∧
        bytesOf "/pay?x" ≠ bytesOf exactRule.matcher.path ∧
        ¬ FollowsPath exactRule.matcher metadata (bytesOf "/pay?x") := by
  refine ⟨by decide +kernel, by decide +kernel,
    ⟨bytesOf "GET", [], bytesOf "/pay?x", []⟩, by decide +kernel, by decide +kernel, by decide +kernel, ?_⟩
  intro hfollows
  have heq := (hfollows.exact (by decide)).mp (by decide +kernel)
  exact absurd heq (by decide +kernel)

end Faultline.HTTP
