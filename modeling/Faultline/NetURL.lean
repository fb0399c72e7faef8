import Faultline.NetAddr

/-! `net/url` as far as an upstream address depends on it. A percent escape
stands for one byte; a byte above 127 is kept as the character of that number,
which no later check takes for ASCII. -/
namespace Faultline

structure URL where
  scheme : List Char
  opaquePart : List Char
  user : Bool
  host : List Char
  path : List Char
  forceQuery : Bool
  rawQuery : List Char
  fragment : List Char
  deriving DecidableEq

def isAlpha (c : Char) : Bool := ('a' ≤ c && c ≤ 'z') || ('A' ≤ c && c ≤ 'Z')

def isAlnum (c : Char) : Bool := isAlpha c || c.isDigit

def unhex (c : Char) : ℕ :=
  if c.isDigit then c.toNat-48 else if 'a' ≤ c then c.toNat-87 else c.toNat-55

def schemeChar (c : Char) : Bool := isAlnum c || c = '+' || c = '-' || c = '.'

/-- `getScheme`: a text without a scheme keeps the empty one; only a text that
starts with a colon is an error. -/
def getScheme (s : List Char) : Option (List Char × List Char) :=
  let scheme := s.takeWhile schemeChar
  match s.dropWhile schemeChar with
  | ':' :: rest =>
    match scheme with
    | [] => none
    | c :: _ => if isAlpha c then some (scheme, rest) else some ([], s)
  | _ => some ([], s)

/-- What may stand unescaped in a host, for `shouldEscape` in host mode. -/
def hostByte (c : Char) : Bool :=
  isAlnum c || c ∈ ['!', '$', '&', '\'', '(', ')', '*', '+', ',', ';', '=', ':', '[', ']',
    '<', '>', '"', '-', '_', '.', '~']

/-- `unescape`: `escape` says which escaped bytes and `plain` which ASCII
characters the mode accepts. -/
def unescape (escape : ℕ → Bool) (plain : Char → Bool) : List Char → Option (List Char)
  | [] => some []
  | c :: s =>
    if c = '%' then
      match s with
      | a :: b :: t =>
        if isHexDigit a && isHexDigit b && escape (unhex a*16+unhex b) then
          (unescape escape plain t).map (Char.ofNat (unhex a*16+unhex b) :: ·)
        else none
      | _ => none
    else if c.toNat < 128 && !plain c then none
    else (unescape escape plain s).map (c :: ·)

def unescapeHost : List Char → Option (List Char) := unescape (fun n => 128 ≤ n || n = 37) hostByte

def unescapeZone : List Char → Option (List Char) :=
  unescape (fun n => n = 37 || n = 32 || 128 ≤ n || hostByte (Char.ofNat n)) hostByte

def unescapeAny : List Char → Option (List Char) := unescape (fun _ => true) (fun _ => true)

def validOptionalPort : List Char → Bool
  | [] => true
  | c :: s => c = ':' && s.all Char.isDigit

/-- The text before the first `%25` and the text from it on. -/
def cutZone : List Char → List Char × List Char
  | '%' :: '2' :: '5' :: s => ([], '%' :: '2' :: '5' :: s)
  | [] => ([], [])
  | c :: s => (c :: (cutZone s).1, (cutZone s).2)

/-- The port of a host without brackets: what follows the first colon, or the last
one in a postgresql URL, which may list several hosts. -/
def plainPort (scheme host : List Char) : Option (List Char) :=
  if scheme = "postgresql".toList then (cutLast ':' host).map (·.2) else (cut ':' host).2

/-- `parseHost`: what brackets enclose has to be an IPv6 address. -/
def parseHost (scheme host : List Char) : Option (List Char) :=
  match host with
  | '[' :: t =>
    match cutLast ']' t with
    | none => none
    | some (inner, port) =>
      match unescapeHost (cutZone inner).1, unescapeZone (cutZone inner).2 with
      | some name, some zone =>
        match parseAddr (name ++ zone) with
        | some (.v6 _) =>
          if '[' ∉ t ∧ validOptionalPort port then some ('[' :: name ++ zone ++ ']' :: port) else none
        | _ => none
      | _, _ => none
  | _ =>
    if '[' ∉ host ∧ (plainPort scheme host).all (·.all Char.isDigit) then unescapeHost host else none

def validUserinfo (s : List Char) : Bool :=
  s.all (fun c => isAlnum c || c ∈ ['-', '.', '_', ':', '~', '!', '$', '&', '\'', '(', ')', '*', '+',
    ',', ';', '=', '%', '@'])

/-- `parseAuthority`: whether there is a userinfo, and the host. -/
def parseAuthority (scheme authority : List Char) : Option (Bool × List Char) :=
  match cutLast '@' authority with
  | none => (parseHost scheme authority).map (fun h => (false, h))
  | some (userinfo, host) =>
    if validUserinfo userinfo && (unescapeAny userinfo).isSome then
      (parseHost scheme host).map (fun h => (true, h))
    else none

def isCTL (c : Char) : Bool := c.toNat < 32 || c.toNat = 127

/-- `url.Parse` on the part before the fragment. -/
def parseNoFragment (s : List Char) : Option URL :=
  if s.any isCTL then none
  else if s = ['*'] then some ⟨[], [], false, [], ['*'], false, [], []⟩
  else match getScheme s with
  | none => none
  | some (rawScheme, tail) =>
    let scheme := lower rawScheme
    let force := tail.getLast? = some '?' ∧ tail.count '?' = 1
    let rest := if force then tail.dropLast else (cut '?' tail).1
    let query := if force then [] else ((cut '?' tail).2).getD []
    if rest.head? ≠ some '/' ∧ scheme ≠ [] then some ⟨scheme, rest, false, [], [], force, query, []⟩
    else if rest.head? ≠ some '/' ∧ ':' ∈ (cut '/' rest).1 then none
    else if (scheme ≠ [] ∨ ¬ "///".toList.isPrefixOf rest) ∧ "//".toList.isPrefixOf rest then
      let authority := (cut '/' (rest.drop 2)).1
      match parseAuthority scheme authority, unescapeAny (rest.drop (2 + authority.length)) with
      | some (user, host), some path => some ⟨scheme, [], user, host, path, force, query, []⟩
      | _, _ => none
    else (unescapeAny rest).map (fun path => ⟨scheme, [], false, [], path, force, query, []⟩)

def parseURL (s : List Char) : Option URL :=
  match cut '#' s with
  | (u, frag) =>
    match parseNoFragment u, unescapeAny (frag.getD []) with
    | some url, some f => some { url with fragment := f }
    | _, _ => none

/-- The `splitHostPort` of `net/url`, behind `Hostname` and `Port`. -/
def URL.hostPort (u : URL) : List Char × List Char :=
  let parts := match cutLast ':' u.host with
    | some (h, p) => if p.all Char.isDigit then (h, p) else (u.host, [])
    | none => (u.host, [])
  if parts.1.head? = some '[' ∧ parts.1.getLast? = some ']' ∧ 2 ≤ parts.1.length then
    (parts.1.tail.dropLast, parts.2)
  else parts

def URL.hostname (u : URL) : List Char := u.hostPort.1

def URL.port (u : URL) : List Char := u.hostPort.2

theorem unescape_plain (escape : ℕ → Bool) (plain : Char → Bool) (s : List Char)
    (h : ∀ c ∈ s, plain c = true ∧ c ≠ '%') : unescape escape plain s = some s := by
  induction s with
  | nil => rfl
  | cons c s ih =>
    obtain ⟨hplain, hpercent⟩ := h c List.mem_cons_self
    have hs := ih (fun d hd => h d (List.mem_cons_of_mem c hd))
    unfold unescape
    simp [hpercent, hplain, hs]

def originChar (c : Char) : Bool := isAlnum c || c ∈ ['-', '.', ':', '[', ']']

theorem originChar_cases (P : Char → Prop)
    (h : ∀ n : Fin 128, originChar (Char.ofNat n) = true → P (Char.ofNat n)) (c : Char)
    (hc : originChar c = true) : P c := by
  refine char_ascii (fun c => originChar c = true → P c) h (fun c hge hc => ?_) c hc
  exfalso
  simp [originChar, isAlnum, isAlpha, isDigit_ascii c hge, not_le_ascii c 'z' hge (by decide),
    not_le_ascii c 'Z' hge (by decide), ne_ascii c '-' hge (by decide),
    ne_ascii c '.' hge (by decide), ne_ascii c ':' hge (by decide), ne_ascii c '[' hge (by decide),
    ne_ascii c ']' hge (by decide)] at hc

theorem originChar_plain (c : Char) (h : originChar c = true) :
    isCTL c = false ∧ hostByte c = true ∧ c ∉ ['%', '#', '?', '/', '@', '*'] := by
  refine originChar_cases (fun c => isCTL c = false ∧ hostByte c = true ∧
    c ∉ ['%', '#', '?', '/', '@', '*']) (by decide) c h

theorem ipChar_origin (c : Char) (h : ipChar c = true) : originChar c = true := by
  refine char_ascii (fun c => ipChar c = true → originChar c = true) (by decide) (fun c hge h => ?_) c h
  simp [ipChar, isHexDigit, isDigit_ascii c hge, not_le_ascii c 'f' hge (by decide),
    not_le_ascii c 'F' hge (by decide), ne_ascii c '.' hge (by decide),
    ne_ascii c ':' hge (by decide)] at h

theorem unescapeHost_origin (s : List Char) (h : ∀ c ∈ s, originChar c = true) :
    unescapeHost s = some s := by
  refine unescape_plain _ _ s (fun c hc => ?_)
  obtain ⟨-, hhost, hsep⟩ := originChar_plain c (h c hc)
  exact ⟨hhost, fun he => hsep (by simp [he])⟩

theorem cutZone_of_notMem (s : List Char) (h : '%' ∉ s) : cutZone s = (s, []) := by
  induction s with
  | nil => rfl
  | cons c s ih =>
    obtain ⟨hc, hs⟩ := not_or.mp (fun hh => h (List.mem_cons.mpr hh))
    unfold cutZone
    split
    · rename_i heq
      cases heq
      exact absurd rfl hc
    · rename_i hnil
      cases hnil
    · rename_i heq
      cases heq
      rw [ih hs]

def PortText (port : List Char) : Prop := port = [] ∨ ∃ p, port = ':' :: p ∧ p.all Char.isDigit

theorem validOptionalPort_portText (port : List Char) (h : PortText port) :
    validOptionalPort port = true := by
  rcases h with rfl | ⟨p, rfl, hp⟩
  · rfl
  · simpa [validOptionalPort] using hp

theorem digits_notMem (p : List Char) (hp : p.all Char.isDigit = true) (c : Char)
    (hc : c.isDigit = false) : c ∉ p := by
  intro hmem
  rw [List.all_eq_true.mp hp c hmem] at hc
  cases hc

theorem portText_origin (port : List Char) (h : PortText port) :
    ∀ c ∈ port, originChar c = true ∧ c ∉ ['[', ']'] := by
  intro c hc
  rcases h with rfl | ⟨p, rfl, hp⟩
  · cases hc
  · rcases List.mem_cons.mp hc with rfl | hc
    · decide
    · have hd := List.all_eq_true.mp hp c hc
      refine ⟨by simp [originChar, isAlnum, hd], fun hbr => ?_⟩
      rcases List.mem_cons.mp hbr with rfl | hbr
      · cases hd
      · rw [List.mem_singleton.mp hbr] at hd
        cases hd

theorem plainPort_append (scheme host port : List Char) (hcolon : ':' ∉ host)
    (hport : PortText port) :
    (plainPort scheme (host ++ port)).all (·.all Char.isDigit) = true := by
  unfold plainPort
  rcases hport with rfl | ⟨p, rfl, hp⟩
  · rw [List.append_nil, cutLast_of_notMem ':' host hcolon, cut_of_notMem ':' host hcolon]
    split <;> rfl
  · rw [cutLast_append ':' host p (digits_notMem p hp ':' (by decide)), cut_append ':' host p hcolon]
    split <;> exact hp

theorem parseHost_plain (scheme host port : List Char)
    (hhost : ∀ c ∈ host, originChar c = true ∧ c ∉ [':', '[', ']']) (hport : PortText port) :
    parseHost scheme (host ++ port) = some (host ++ port) := by
  have hcolon : ':' ∉ host := fun h => (hhost _ h).2 (by simp)
  have hopen : '[' ∉ host ++ port := by
    intro h
    rcases List.mem_append.mp h with h | h
    · exact (hhost _ h).2 (by simp)
    · exact (portText_origin port hport _ h).2 (by simp)
  have horigin : ∀ c ∈ host ++ port, originChar c = true := by
    intro c hc
    rcases List.mem_append.mp hc with hc | hc
    · exact (hhost c hc).1
    · exact (portText_origin port hport c hc).1
  unfold parseHost
  split
  · rename_i t heq
    exact absurd (heq ▸ List.mem_cons_self) hopen
  · rw [if_pos ⟨hopen, plainPort_append scheme host port hcolon hport⟩]
    exact unescapeHost_origin _ horigin

theorem parseHost_bracket (scheme host port : List Char) (hhost : parseAddr host = some (.v6 []))
    (hchars : ∀ c ∈ host, ipChar c = true) (hport : PortText port) :
    parseHost scheme ('[' :: host ++ ']' :: port) = some ('[' :: host ++ ']' :: port) := by
  have hip (a : Char) (ha : ipChar a = false) : a ∉ host := fun h => by
    rw [hchars a h] at ha
    cases ha
  have hcut : cutLast ']' (host ++ ']' :: port) = some (host, port) :=
    cutLast_append ']' host port (fun h => (portText_origin port hport _ h).2 (by simp))
  have hopen : '[' ∉ host ++ ']' :: port := by
    have hp : '[' ∉ port := fun h => (portText_origin port hport _ h).2 (by simp)
    simp [hip '[' (by decide), hp]
  have horigin : ∀ c ∈ host, originChar c = true := fun c hc =>
    ipChar_origin c (hchars c hc)
  simp only [parseHost, List.cons_append, hcut, cutZone_of_notMem host (hip '%' (by decide)),
    unescapeHost_origin host horigin, unescapeZone, unescape, List.append_nil, hhost, hopen,
    validOptionalPort_portText port hport, not_false_eq_true, and_self, if_true]

theorem getScheme_append (scheme rest : List Char) (hne : scheme ≠ [])
    (hs : ∀ c ∈ scheme, isAlpha c = true) :
    getScheme (scheme ++ ':' :: rest) = some (scheme, rest) := by
  have hall : ∀ c ∈ scheme, schemeChar c = true := fun c hc => by
    simp [schemeChar, isAlnum, hs c hc]
  have hstop : schemeChar ':' = false := by decide
  have htake : (scheme ++ ':' :: rest).takeWhile schemeChar = scheme := by
    rw [List.takeWhile_append_of_pos hall, List.takeWhile_cons_of_neg (by simp [hstop]),
      List.append_nil]
  have hdrop : (scheme ++ ':' :: rest).dropWhile schemeChar = ':' :: rest := by
    rw [List.dropWhile_append_of_pos hall, List.dropWhile_cons_of_neg (by simp [hstop])]
  unfold getScheme
  simp only [htake, hdrop]
  cases scheme with
  | nil => exact absurd rfl hne
  | cons c s => simp [hs c List.mem_cons_self]

/-- A lower-case scheme followed by a host and port that `parseHost` accepts
unchanged parses into just these parts. -/
theorem parseURL_origin (scheme hp : List Char) (hne : scheme ≠ [])
    (hs : ∀ c ∈ scheme, isAlpha c = true ∧ c.toLower = c) (hc : ∀ c ∈ hp, originChar c = true)
    (hh : parseHost scheme hp = some hp) :
    parseURL (scheme ++ ':' :: '/' :: '/' :: hp) = some ⟨scheme, [], false, hp, [], false, [], []⟩ := by
  have hnot (a : Char) (ha : a ∈ ['%', '#', '?', '/', '@', '*']) : a ∉ hp := fun h =>
    (originChar_plain a (hc a h)).2.2 ha
  have hsorigin (c : Char) (hmem : c ∈ scheme) : originChar c = true := by
    simp [originChar, isAlnum, (hs c hmem).1]
  have hsnot (a : Char) (ha : a ∈ ['%', '#', '?', '/', '@', '*']) : a ∉ scheme := fun h =>
    (originChar_plain a (hsorigin a h)).2.2 ha
  have hsharp : '#' ∉ scheme ++ ':' :: '/' :: '/' :: hp := by
    simp [hnot '#' (by simp), hsnot '#' (by simp)]
  have hctl : (scheme ++ ':' :: '/' :: '/' :: hp).any isCTL = false := by
    refine List.any_eq_false.mpr (fun c hmem => ?_)
    have hcases : c ∈ scheme ∨ c = ':' ∨ c = '/' ∨ c ∈ hp := by simpa using hmem
    rcases hcases with h | rfl | rfl | h
    · simp [(originChar_plain c (hsorigin c h)).1]
    · decide
    · decide
    · simp [(originChar_plain c (hc c h)).1]
  have hstar : scheme ++ ':' :: '/' :: '/' :: hp ≠ ['*'] := by
    intro h
    have hlen := congrArg List.length h
    simp at hlen
    omega
  have hscheme := getScheme_append scheme ('/' :: '/' :: hp) hne (fun c h => (hs c h).1)
  have hlower : lower scheme = scheme := by
    rw [lower, List.map_congr_left (fun c h => (hs c h).2), List.map_id'']
    exact fun _ => rfl
  have hquery : '?' ∉ '/' :: '/' :: hp := by simp [hnot '?' (by simp)]
  have hcount : ('/' :: '/' :: hp).count '?' = 0 := List.count_eq_zero.mpr hquery
  have hslash := cut_of_notMem '/' hp (hnot '/' (by simp))
  have hat := cutLast_of_notMem '@' hp (hnot '@' (by simp))
  have hdrop : ('/' :: '/' :: hp).drop (2 + hp.length) = [] :=
    List.drop_eq_nil_of_le (by simp; omega)
  have hnofrag : parseNoFragment (scheme ++ ':' :: '/' :: '/' :: hp) =
      some ⟨scheme, [], false, hp, [], false, [], []⟩ := by
    unfold parseNoFragment
    simp [hctl, hstar, hscheme, hlower, hcount, cut_of_notMem '?' _ hquery, hne, hslash,
      parseAuthority, hat, hh, hdrop, unescapeAny, unescape]
  simp [parseURL, cut_of_notMem '#' _ hsharp, hnofrag, unescapeAny, unescape]

theorem hostPort_plain (u : URL) (host port : List Char) (hu : u.host = host ++ port)
    (hhost : ':' ∉ host ∧ '[' ∉ host) (hport : PortText port) : u.hostPort = (host, port.tail) := by
  have hhead : host.head? ≠ some '[' := fun h => hhost.2 (List.mem_of_mem_head? h)
  unfold URL.hostPort
  rcases hport with rfl | ⟨p, rfl, hp⟩
  · rw [List.append_nil] at hu
    simp [hu, cutLast_of_notMem ':' host hhost.1, hhead]
  · have hcut := cutLast_append ':' host p (digits_notMem p hp ':' (by decide))
    simp only [hu, hcut, hp, if_true, hhead, false_and, if_false, List.tail_cons]

theorem hostPort_bracket (u : URL) (host port : List Char) (hu : u.host = '[' :: host ++ ']' :: port)
    (hport : PortText port) : u.hostPort = (host, port.tail) := by
  have hstrip (p : List Char) : (if ('[' :: host ++ [']']).head? = some '[' ∧
      ('[' :: host ++ [']']).getLast? = some ']' ∧ 2 ≤ ('[' :: host ++ [']']).length then
      (('[' :: host ++ [']']).tail.dropLast, p) else ('[' :: host ++ [']'], p)) = (host, p) := by
    rw [if_pos ⟨rfl, List.getLast?_concat .., by simp⟩]
    simp
  unfold URL.hostPort
  rcases hport with rfl | ⟨p, rfl, hp⟩
  · rw [hu]
    cases hcut : cutLast ':' ('[' :: host ++ [']']) with
    | none => exact hstrip []
    | some parts =>
      -- the text after the last colon ends with the bracket, so it is no port
      obtain ⟨a, b⟩ := parts
      have hlast : ('[' :: host ++ [']']).getLast? = some ']' := List.getLast?_concat ..
      rw [cutLast_some ':' _ a b hcut] at hlast
      have hb : b.all Char.isDigit = false := by
        cases b using List.reverseRecOn with
        | nil => simp at hlast
        | append_singleton b c =>
          have hc : c = ']' := by simpa [List.getLast?_cons] using hlast
          simp [hc]
      simp only [hb, Bool.false_eq_true, if_false]
      exact hstrip []
  · have hsplit : '[' :: host ++ ']' :: ':' :: p = ('[' :: host ++ [']']) ++ ':' :: p := by simp
    rw [hu, hsplit, cutLast_append ':' _ p (digits_notMem p hp ':' (by decide))]
    simp only [hp, if_true]
    exact hstrip p

end Faultline
