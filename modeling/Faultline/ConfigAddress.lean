import Faultline.ConfigProxies

/-! Normalized addresses: the listener and the upstream that validation writes back are
read again into themselves. -/
namespace Faultline

theorem splitOn_lower (s : List Char) :
    (lower s).splitOn '.' = (s.splitOn '.').map lower := by
  induction s with
  | nil => rfl
  | cons c s ih =>
    have hdot : c.toLower = '.' ↔ c = '.' := toLower_eq_iff c '.' (by decide)
    rw [lower_cons, List.splitOn_cons_eq_if_modifyHead, List.splitOn_cons_eq_if_modifyHead, ih]
    by_cases hc : c = '.'
    · simp [hc]
    · have hl : c.toLower ≠ '.' := fun h => hc (hdot.mp h)
      simp only [beq_iff_eq, if_neg hc, if_neg hl]
      cases s.splitOn '.' with
      | nil => rfl
      | cons e es => simp

theorem isAlnum_toLower (c : Char) : isAlnum c.toLower = isAlnum c := by
  refine char_ascii (fun c => isAlnum c.toLower = isAlnum c) (by decide) (fun c hc => ?_) c
  rw [toLower_of_ge c hc]

theorem label_lower (s : List Char) : label (lower s) = label s := by
  have hdash (c : Char) : c.toLower = '-' ↔ c = '-' := toLower_eq_iff c '-' (by decide)
  have hhead : (lower s).head? = some '-' ↔ s.head? = some '-' := by
    cases s with
    | nil => simp [lower]
    | cons c s => simp [lower, hdash]
  have hlast : (lower s).getLast? = some '-' ↔ s.getLast? = some '-' := by
    rw [lower, List.getLast?_map]
    cases s.getLast? with
    | none => simp
    | some c => simp [hdash]
  have hall : (lower s).all (fun c => isAlnum c || c = '-') = s.all (fun c => isAlnum c || c = '-') := by
    rw [lower, List.all_map]
    refine congrArg (fun f => s.all f) ?_
    funext c
    simp only [Function.comp, isAlnum_toLower, hdash]
  simp only [label, hall, length_lower, ne_eq, hhead, hlast, lower_eq_nil]

theorem hostname_lower (s : List Char) (h : '%' ∉ s) : hostname (lower s) = hostname s := by
  have hdot (c : Char) : c.toLower = '.' ↔ c = '.' := toLower_eq_iff c '.' (by decide)
  have hlast : (lower s).getLast? = some '.' ↔ s.getLast? = some '.' := by
    rw [lower, List.getLast?_map]
    cases s.getLast? with
    | none => simp
    | some c => simp [hdot]
  have hdrop : (lower s).dropLast = lower s.dropLast := by simp [lower, List.map_dropLast]
  have hall (t : List Char) : ((lower t).splitOn '.').all label = (t.splitOn '.').all label := by
    rw [splitOn_lower, List.all_map]
    refine congrArg (fun f => (t.splitOn '.').all f) ?_
    funext e
    exact label_lower e
  unfold hostname
  rw [parseIP_lower s h]
  by_cases hd : s.getLast? = some '.'
  · simp only [hlast, hd, if_true, hdrop, hall, length_lower, ne_eq, lower_eq_nil]
  · simp only [hlast, hd, if_false, hall, length_lower, ne_eq, lower_eq_nil]

/-- The characters of a host: no brackets, and nothing that a URL would escape. -/
theorem hostname_chars (s : List Char) (h : hostname s = true) :
    ∀ c ∈ s, originChar c = true ∧ c ∉ ['[', ']'] := by
  intro c hc
  simp only [hostname, Bool.or_eq_true, Bool.and_eq_true] at h
  rcases h with hip | ⟨-, hlabels⟩
  · have hchar := parseIP_chars s hip c hc
    refine ⟨ipChar_origin c hchar, ?_⟩
    intro hbracket
    simp only [List.mem_cons, List.not_mem_nil, or_false] at hbracket
    rcases hbracket with rfl | rfl
    · exact absurd hchar (by decide)
    · exact absurd hchar (by decide)
  · -- every character is a dot or belongs to a label
    have hcases : c = '.' ∨ ∃ e ∈ (if s.getLast? = some '.' then s.dropLast else s).splitOn '.', c ∈ e := by
      by_cases hd : s.getLast? = some '.'
      · rw [if_pos hd]
        have hsplit : s = s.dropLast ++ ['.'] := by
          have hne : s ≠ [] := fun he => by simp [he] at hc
          rw [List.getLast?_eq_some_getLast hne] at hd
          rw [← Option.some.inj hd, List.dropLast_append_getLast]
        rw [hsplit, List.mem_append, List.mem_singleton] at hc
        rcases hc with hc | hc
        · exact mem_splitOn '.' _ c hc
        · exact .inl hc
      · rw [if_neg hd]
        exact mem_splitOn '.' _ c hc
    rcases hcases with rfl | ⟨e, he, hce⟩
    · decide
    · have hlabel := List.all_eq_true.mp hlabels e he
      simp only [label, Bool.and_eq_true, List.all_eq_true] at hlabel
      have hchar := hlabel.2 c hce
      simp only [Bool.or_eq_true, decide_eq_true_eq] at hchar
      rcases hchar with hchar | rfl
      · refine ⟨by simp [originChar, hchar], ?_⟩
        intro hbracket
        simp only [List.mem_cons, List.not_mem_nil, or_false] at hbracket
        rcases hbracket with rfl | rfl
        · exact absurd hchar (by decide)
        · exact absurd hchar (by decide)
      · decide

theorem hostname_notMem (s : List Char) (h : hostname s = true) (a : Char)
    (ha : originChar a = false ∨ a ∈ ['[', ']']) : a ∉ s := by
  intro hmem
  obtain ⟨horigin, hbracket⟩ := hostname_chars s h a hmem
  rcases ha with ha | ha
  · rw [horigin] at ha
    cases ha
  · exact hbracket ha

theorem hostname_lower_of (s : List Char) (h : hostname s = true) : hostname (lower s) = true := by
  rw [hostname_lower s (hostname_notMem s h '%' (.inl (by decide)))]
  exact h

theorem hostname_ne_nil (s : List Char) (h : hostname s = true) : s ≠ [] := by
  rintro rfl
  exact absurd h (by decide)

theorem validPort_bounds {n : ℤ} (h : validPort n = true) : 0 ≤ n ∧ n < 2^63 := by
  simp only [validPort, Bool.and_eq_true, decide_eq_true_eq] at h
  omega

theorem itoa_notMem {n : ℤ} (h : 0 ≤ n) (a : Char) (ha : a.isDigit = false) : a ∉ itoa n := by
  intro hmem
  rw [itoa_digits n h a hmem] at ha
  cases ha

theorem itoa_ne_nil (n : ℤ) : itoa n ≠ [] := by
  intro h
  exact Nat.toDigits_ne_nil (List.append_eq_nil_iff.mp h).2

theorem validateListen_idem (path path' listen listen' : String)
    (h : validateListen path listen = .ok listen') : validateListen path' listen' = .ok listen' := by
  unfold validateListen at h
  split at h
  · cases h
  · split at h
    · cases h
    · rename_i host port hsplit _ n hn
      simp only [reject_bind_eq_ok, pure_eq_ok, not_or, Decidable.not_not, not_and] at h
      obtain ⟨⟨hport, hhost⟩, rfl⟩ := h
      set name := if host = [] then "127.0.0.1".toList else host with hname
      have hvalid : hostname name = true := by
        by_cases he : host = []
        · rw [hname, if_pos he]
          decide
        · rw [hname, if_neg he]
          exact hhost he
      obtain ⟨hlow, hhigh⟩ := validPort_bounds hport
      have hlower := hostname_lower_of name hvalid
      have hagain : splitHostPort (joinHostPort (lower name) (itoa n)) = some (lower name, itoa n) := by
        apply splitHostPort_joinHostPort
        · exact ⟨hostname_notMem _ hlower '[' (.inr (by simp)), hostname_notMem _ hlower ']' (.inr (by simp))⟩
        · exact ⟨itoa_notMem hlow ':' (by decide), itoa_notMem hlow '[' (by decide),
            itoa_notMem hlow ']' (by decide)⟩
      have hne := hostname_ne_nil _ hlower
      unfold validateListen
      rw [String.toList_ofList, hagain]
      simp only [atoi_itoa n hlow hhigh, reject_bind_eq_ok, pure_eq_ok, not_or, Decidable.not_not,
        not_and, hport, hlower, hne, if_false, lower_idem, implies_true, and_self]

def portSuffix (port : List Char) : List Char := if port = [] then [] else ':' :: port

theorem portSuffix_text (port : List Char) (h : port.all Char.isDigit = true) :
    PortText (portSuffix port) ∧ (portSuffix port).tail = port := by
  unfold portSuffix
  by_cases hp : port = []
  · rw [if_pos hp]
    exact ⟨.inl rfl, hp.symm⟩
  · rw [if_neg hp]
    exact ⟨.inr ⟨port, rfl, h⟩, rfl⟩

theorem originHost_eq (host port : List Char) : originHost host port =
    if ':' ∈ host then '[' :: host ++ ']' :: portSuffix port else host ++ portSuffix port := by
  unfold originHost portSuffix joinHostPort
  by_cases hp : port = [] <;> by_cases hc : ':' ∈ host <;> simp [hp, hc]

theorem hostname_colon (host : List Char) (h : hostname host = true) (hc : ':' ∈ host) :
    parseIP host = true := by
  simp only [hostname, Bool.or_eq_true, Bool.and_eq_true] at h
  refine h.resolve_right ?_
  rintro ⟨-, hlabels⟩
  -- a colon would have to belong to a label
  have hinside : ':' ∈ (if host.getLast? = some '.' then host.dropLast else host) := by
    split_ifs with hd
    · have hne : host ≠ [] := fun he => by simp [he] at hc
      rw [List.getLast?_eq_some_getLast hne] at hd
      have hsplit := List.dropLast_append_getLast hne
      rw [Option.some.inj hd] at hsplit
      rw [← hsplit] at hc
      simpa using hc
    · exact hc
  rcases mem_splitOn '.' _ ':' hinside with he | ⟨e, he, hce⟩
  · exact absurd he (by decide)
  · have hlabel := List.all_eq_true.mp hlabels e he
    simp only [label, Bool.and_eq_true, List.all_eq_true] at hlabel
    exact absurd (hlabel.2 ':' hce) (by decide)

theorem originHost_read (scheme host port : List Char) (hhost : hostname host = true)
    (hport : port.all Char.isDigit = true) :
    (∀ c ∈ originHost host port, originChar c = true) ∧
      parseHost scheme (originHost host port) = some (originHost host port) ∧
      ∀ u : URL, u.host = originHost host port → u.hostPort = (host, port) := by
  obtain ⟨htext, htail⟩ := portSuffix_text port hport
  have hchars := hostname_chars host hhost
  have hsuffix := portText_origin _ htext
  rw [originHost_eq]
  by_cases hc : ':' ∈ host
  · have hip := hostname_colon host hhost hc
    rw [if_pos hc]
    refine ⟨?_, parseHost_bracket scheme host _ (parseIP_colon host hip hc) (parseIP_chars host hip) htext, ?_⟩
    · intro c hmem
      have hcases : c = '[' ∨ c ∈ host ∨ c = ']' ∨ c ∈ portSuffix port := by simpa using hmem
      rcases hcases with rfl | h | rfl | h
      · decide
      · exact (hchars c h).1
      · decide
      · exact (hsuffix c h).1
    · intro u hu
      rw [hostPort_bracket u host _ hu htext, htail]
  · rw [if_neg hc]
    refine ⟨?_, parseHost_plain scheme host _ ?_ htext, ?_⟩
    · intro c hmem
      rcases List.mem_append.mp hmem with h | h
      · exact (hchars c h).1
      · exact (hsuffix c h).1
    · intro c hmem
      refine ⟨(hchars c hmem).1, ?_⟩
      intro hbad
      rcases List.mem_cons.mp hbad with rfl | hbad
      · exact hc hmem
      · exact (hchars c hmem).2 hbad
    · intro u hu
      have hopen : '[' ∉ host := hostname_notMem host hhost '[' (.inr (by simp))
      rw [hostPort_plain u host _ hu ⟨hc, hopen⟩ htext, htail]

theorem itoa_all_digits {n : ℤ} (h : 0 ≤ n) : (itoa n).all Char.isDigit = true :=
  List.all_eq_true.mpr (itoa_digits n h)

theorem joinHostPort_eq (host : List Char) (n : ℤ) :
    joinHostPort host (itoa n) = originHost host (itoa n) := by
  rw [originHost, if_pos (itoa_ne_nil n)]

def originURL (scheme host port : List Char) : URL :=
  ⟨scheme, [], false, originHost host port, [], false, [], []⟩

def SchemeText (scheme : List Char) : Prop :=
  scheme ≠ [] ∧ ∀ c ∈ scheme, isAlpha c = true ∧ c.toLower = c

theorem parseURL_originURL (scheme host port : List Char) (hscheme : SchemeText scheme)
    (hhost : hostname host = true) (hport : port.all Char.isDigit = true) :
    parseURL (scheme ++ "://".toList ++ originHost host port) = some (originURL scheme host port) ∧
      (originURL scheme host port).hostname = host ∧ (originURL scheme host port).port = port := by
  obtain ⟨hchars, hparse, hread⟩ := originHost_read scheme host port hhost hport
  have hparts := hread (originURL scheme host port) rfl
  have htext : scheme ++ "://".toList ++ originHost host port =
      scheme ++ ':' :: '/' :: '/' :: originHost host port := by
    rw [List.append_assoc]
    rfl
  rw [htext]
  exact ⟨parseURL_origin scheme _ hscheme.1 hscheme.2 hchars hparse, by rw [URL.hostname, hparts],
    by rw [URL.port, hparts]⟩

def upstreamSchemes : List (List Char) :=
  ["tcp".toList, "http".toList, "https".toList, "postgresql".toList, "postgresqls".toList,
    "mysql".toList, "mysqls".toList]

theorem schemeText_mem {scheme : List Char} (h : scheme ∈ upstreamSchemes) : SchemeText scheme := by
  have hletters : upstreamSchemes.all
      (fun s => s ≠ [] && s.all (fun c => isAlpha c && c.toLower == c)) = true := by decide +kernel
  have hscheme := List.all_eq_true.mp hletters scheme h
  simpa [SchemeText] using hscheme

theorem validateTCPUpstream_idem (path path' upstream listen upstream' : String)
    (h : validateTCPUpstream path upstream listen = .ok upstream') :
    validateTCPUpstream path' upstream' listen = .ok upstream' := by
  unfold validateTCPUpstream at h
  split at h
  · cases h
  · rename_i u hu
    simp only [reject_bind_eq_ok] at h
    obtain ⟨hshape, h⟩ := h
    split at h
    · cases h
    · rename_i n hn
      simp only [reject_bind_eq_ok, pure_eq_ok, Decidable.not_not] at h
      obtain ⟨hport, hself, rfl⟩ := h
      push Not at hshape
      obtain ⟨-, -, -, -, -, -, -, hhost, -⟩ := hshape
      obtain ⟨hlow, hhigh⟩ := validPort_bounds hport
      have hlower := hostname_lower_of _ hhost
      have hfix : lower (lower u.hostname) = lower u.hostname := lower_idem _
      generalize lower u.hostname = name at hself hlower hfix ⊢
      have hscheme : SchemeText "tcp".toList := schemeText_mem (by simp [upstreamSchemes])
      obtain ⟨hparse, hname, hdigits⟩ := parseURL_originURL "tcp".toList name (itoa n) hscheme hlower
        (itoa_all_digits hlow)
      have htext : ("tcp://" ++ String.ofList (joinHostPort name (itoa n))).toList =
          "tcp".toList ++ "://".toList ++ originHost name (itoa n) := by
        rw [String.toList_append, joinHostPort_eq]
        simp
      unfold validateTCPUpstream
      rw [htext, hparse]
      simp only [hname, hdigits, atoi_itoa n hlow hhigh, reject_bind_eq_ok, pure_eq_ok, hfix]
      refine ⟨?_, by simp [hport], hself, trivial⟩
      simp [originURL, hlower, itoa_ne_nil n]

theorem validUpstreamScheme_mem {protocol : String} {scheme : List Char}
    (h : validUpstreamScheme protocol scheme = true) : scheme ∈ upstreamSchemes := by
  unfold validUpstreamScheme at h
  split_ifs at h with hdb
  · simp only [isDatabase, Bool.or_eq_true, decide_eq_true_eq] at hdb h
    rcases hdb with rfl | rfl <;> rcases h with rfl | rfl <;> simp [upstreamSchemes]
  · simp only [Bool.or_eq_true, decide_eq_true_eq] at h
    rcases h with rfl | rfl <;> simp [upstreamSchemes]

def defaultPort (scheme port : List Char) : Prop :=
  port = "80".toList ∧ scheme = "http".toList ∨ port = "443".toList ∧ scheme = "https".toList

theorem database_scheme {protocol : String} {scheme : List Char} (hdb : isDatabase protocol = true)
    (h : validUpstreamScheme protocol scheme = true) : scheme ≠ "http".toList ∧ scheme ≠ "https".toList := by
  simp only [validUpstreamScheme, hdb, if_true, Bool.or_eq_true, decide_eq_true_eq] at h
  simp only [isDatabase, Bool.or_eq_true, decide_eq_true_eq] at hdb
  rcases hdb with rfl | rfl <;> rcases h with rfl | rfl <;> exact ⟨by decide, by decide⟩

theorem originPort_ok {protocol : String} {u : URL} {path : String} {port : List Char}
    (h : originPort protocol u path = .ok port) (hscheme : validUpstreamScheme protocol u.scheme = true) :
    port = [] ∧ isDatabase protocol = false ∨
      ∃ n, validPort n = true ∧ port = itoa n ∧ ¬ defaultPort u.scheme (itoa n) := by
  have hdefault (hs : u.scheme = "http".toList ∨ u.scheme = "https".toList) : isDatabase protocol = false := by
    rw [← Bool.not_eq_true]
    intro hdb
    obtain ⟨h1, h2⟩ := database_scheme hdb hscheme
    exact hs.elim h1 h2
  unfold originPort at h
  simp only at h
  generalize hgiven : (if isDatabase protocol = true ∧ u.port = [] ∧ ¬ u.host.getLast? = some ':' then
    (if protocol = "mysql" then "3306".toList else "5432".toList) else u.port) = given at h
  by_cases hne : given ≠ []
  · rw [if_pos hne] at h
    split at h
    · cases h
    · rename_i n hn
      rw [reject_bind_eq_ok, Decidable.not_not] at h
      obtain ⟨hvalid, h⟩ := h
      split_ifs at h with hd
      · rw [pure_eq_ok] at h
        exact .inl ⟨h.symm, hdefault (hd.imp And.right And.right)⟩
      · rw [pure_eq_ok] at h
        exact .inr ⟨n, hvalid, h.symm, hd⟩
  · rw [if_neg hne, reject_bind_eq_ok, pure_eq_ok] at h
    refine .inl ⟨h.2.symm, ?_⟩
    -- a database without a port and without a final colon would have got its default
    rw [← Bool.not_eq_true]
    intro hdb
    rw [not_not.mp hne] at hgiven
    by_cases hempty : u.port = []
    · rw [if_pos ⟨hdb, hempty, h.1⟩] at hgiven
      split_ifs at hgiven <;> exact absurd hgiven (by decide)
    · rw [if_neg (fun hh => hempty hh.2.1)] at hgiven
      exact hempty hgiven

theorem originHost_last {host port : List Char} (hport : port.all Char.isDigit = true) :
    (originHost host port).getLast? ≠ some ':' := by
  intro hlast
  rw [originHost_eq] at hlast
  have hdigit : ':' ∉ port := digits_notMem port hport ':' (by decide)
  by_cases hp : port = []
  · subst hp
    simp only [portSuffix, if_true] at hlast
    split_ifs at hlast with hc
    · rw [List.getLast?_concat] at hlast
      exact absurd hlast (by decide)
    · rw [List.append_nil] at hlast
      exact hc (List.mem_of_getLast? hlast)
  · simp only [portSuffix, if_neg hp] at hlast
    have hmem : (':' :: port).getLast? = some ':' := by
      split_ifs at hlast with hc
      · have hsplit : '[' :: host ++ ']' :: ':' :: port = ('[' :: host ++ [']']) ++ ':' :: port := by simp
        rwa [hsplit, List.getLast?_append_of_ne_nil _ (by simp)] at hlast
      · rwa [List.getLast?_append_of_ne_nil _ (by simp)] at hlast
    rw [List.getLast?_cons, List.getLast?_eq_some_getLast hp, Option.getD_some, Option.some.injEq] at hmem
    exact hdigit (hmem ▸ List.getLast_mem hp)

theorem originPort_again {protocol : String} {scheme host port : List Char} (path : String)
    (hport : port = [] ∧ isDatabase protocol = false ∨
      ∃ n, validPort n = true ∧ port = itoa n ∧ ¬ defaultPort scheme (itoa n))
    (hparts : (originURL scheme host port).port = port) :
    originPort protocol (originURL scheme host port) path = .ok port := by
  have hdigits : port.all Char.isDigit = true := by
    rcases hport with ⟨rfl, -⟩ | ⟨n, hn, rfl, -⟩
    · rfl
    · exact itoa_all_digits (validPort_bounds hn).1
  have hlast : ¬ (originURL scheme host port).host.getLast? = some ':' := originHost_last hdigits
  have hscheme : (originURL scheme host port).scheme = scheme := rfl
  unfold originPort
  simp only [hparts, hlast, hscheme]
  rcases hport with ⟨rfl, hdb⟩ | ⟨n, hn, rfl, hd⟩
  · simp only [hdb, Bool.false_eq_true, false_and, if_false, ne_eq, not_true_eq_false]
    rfl
  · obtain ⟨hlow, hhigh⟩ := validPort_bounds hn
    have hne := itoa_ne_nil n
    simp only [hne, false_and, and_false, if_false, ne_eq, not_false_eq_true, if_true, atoi_itoa n hlow hhigh]
    rw [reject_bind_eq_ok]
    refine ⟨by simp [hn], ?_⟩
    split_ifs with hdefault
    · exact absurd hdefault hd
    · rfl

theorem validateOrigin_idem (path path' protocol upstream upstream' : String)
    (h : validateOrigin path protocol upstream = .ok upstream') :
    validateOrigin path' protocol upstream' = .ok upstream' := by
  unfold validateOrigin at h
  split at h
  · cases h
  · rename_i u hu
    simp only [reject_eq_ok, exists_const, bind_eq_ok, pure_eq_ok] at h
    obtain ⟨hshape, port, hport, rfl⟩ := h
    push Not at hshape
    obtain ⟨hscheme, -, hhost, -⟩ := hshape
    have hlower := hostname_lower_of _ hhost
    have hfix : lower (lower u.hostname) = lower u.hostname := lower_idem _
    have hnormal := originPort_ok hport hscheme
    generalize lower u.hostname = name at hlower hfix ⊢
    have hdigits : port.all Char.isDigit = true := by
      rcases hnormal with ⟨rfl, -⟩ | ⟨n, hn, rfl, -⟩
      · rfl
      · exact itoa_all_digits (validPort_bounds hn).1
    have hmem := validUpstreamScheme_mem hscheme
    obtain ⟨hparse, hname, hparts⟩ := parseURL_originURL u.scheme name port (schemeText_mem hmem) hlower hdigits
    have hsharp : '#' ∉ u.scheme ++ "://".toList ++ originHost name port := by
      intro hin
      rcases List.mem_append.mp hin with hin | hin
      · rcases List.mem_append.mp hin with hin | hin
        · exact absurd ((schemeText_mem hmem).2 '#' hin).1 (by decide)
        · exact absurd hin (by decide)
      · exact absurd ((originHost_read u.scheme name port hlower hdigits).1 '#' hin) (by decide)
    unfold validateOrigin
    rw [String.toList_ofList, hparse]
    simp only [reject_eq_ok, exists_const, bind_eq_ok, pure_eq_ok, hname, hfix]
    refine ⟨?_, port, originPort_again path' hnormal hparts, rfl⟩
    simp only [originURL, hscheme, hlower]
    push Not
    exact ⟨trivial, by simp, trivial, rfl, fun h => absurd rfl h, rfl, by simp, hsharp⟩

end Faultline
