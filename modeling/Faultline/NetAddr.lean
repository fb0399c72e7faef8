import Faultline.Text

/-! Addresses as `net` and `net/netip` read them. Only the validity of an IP
literal and the family of a valid one are modelled: nothing here uses the
sixteen bytes of the address. -/
namespace Faultline

def isHexDigit (c : Char) : Bool :=
  c.isDigit || ('a' ≤ c && c ≤ 'f') || ('A' ≤ c && c ≤ 'F')

/-- `netip.parseIPv4Fields` after some octets: the value and the length of the
octet being read and the number of octets already closed. -/
def parseIPv4Fields (val digLen pos : ℕ) : List Char → Bool
  | [] => pos = 3
  | c :: s =>
    if c.isDigit then
      if digLen = 1 ∧ val = 0 then false
      else if val*10+(c.toNat-48) > 255 then false
      else parseIPv4Fields (val*10+(c.toNat-48)) (digLen+1) pos s
    else if c = '.' then
      if digLen = 0 ∨ s = [] ∨ pos = 3 then false
      else parseIPv4Fields 0 0 (pos+1) s
    else false

/-- One turn of the loop of `netip.parseIPv6`, with `k+1` two-byte groups still
free: either the loop ends, with the ellipsis flag, the groups left and the text
it did not read, or it goes on with the flag and the remaining text. -/
def parseIPv6Group (k : ℕ) (ellipsis : Bool) (s : List Char) :
    Option ((Bool × ℕ × List Char) ⊕ (Bool × List Char)) :=
  let hex := s.takeWhile isHexDigit
  if hex = [] ∨ 4 < hex.length then none
  else match s.dropWhile isHexDigit with
  | [] => some (.inl (ellipsis, k, []))
  | c :: t =>
    if c = '.' then
      -- a trailing IPv4 address takes the place of the last two groups
      if (!ellipsis && k+1 ≠ 2) || k+1 < 2 || !parseIPv4Fields 0 0 0 s then none
      else some (.inl (ellipsis, k-1, []))
    else if c ≠ ':' then none
    else match t with
    | [] => none
    | d :: u =>
      if d ≠ ':' then some (.inr (ellipsis, t))
      else if ellipsis then none
      else if u = [] then some (.inl (true, k, [])) else some (.inr (true, u))

def parseIPv6Groups : ℕ → Bool → List Char → Option (Bool × ℕ × List Char)
  | 0, ellipsis, s => some (ellipsis, 0, s)
  | k+1, ellipsis, s =>
    match parseIPv6Group k ellipsis s with
    | none => none
    | some (.inl r) => some r
    | some (.inr (e, t)) => parseIPv6Groups k e t

def parseIPv6 (s : List Char) : Bool :=
  let start := if [':', ':'].isPrefixOf s then (true, s.drop 2) else (false, s)
  if start = (true, []) then true
  else match parseIPv6Groups 8 start.1 start.2 with
  | some (ellipsis, k, []) => if k = 0 then !ellipsis else ellipsis
  | _ => false

inductive AddrFamily
  | v4
  | v6 (zone : List Char)
  deriving DecidableEq

/-- `netip.ParseAddr`. -/
def parseAddr (s : List Char) : Option AddrFamily :=
  match s.find? (fun c => c = '.' ∨ c = ':' ∨ c = '%') with
  | some '.' => if parseIPv4Fields 0 0 0 s then some .v4 else none
  | some ':' =>
    match cut '%' s with
    | (a, none) => if parseIPv6 a then some (.v6 []) else none
    | (a, some zone) => if zone ≠ [] ∧ parseIPv6 a then some (.v6 zone) else none
  | _ => none

/-- `net.ParseIP` succeeds: an address without a zone. -/
def parseIP (s : List Char) : Bool := parseAddr s = some .v4 ∨ parseAddr s = some (.v6 [])

/-- `net.SplitHostPort`. -/
def splitHostPort (s : List Char) : Option (List Char × List Char) :=
  match s with
  | '[' :: t =>
    match cut ']' t with
    | (host, some (':' :: port)) =>
      if ':' ∈ port ∨ '[' ∈ t ∨ ']' ∈ port then none else some (host, port)
    | _ => none
  | _ =>
    match cutLast ':' s with
    | some (host, port) =>
      if ':' ∈ host ∨ '[' ∈ s ∨ ']' ∈ s then none else some (host, port)
    | none => none

/-- `net.JoinHostPort`: a host with a colon is taken for an IPv6 literal. -/
def joinHostPort (host port : List Char) : List Char :=
  if ':' ∈ host then '[' :: host ++ ']' :: ':' :: port else host ++ ':' :: port

theorem isHexDigit_toLower (c : Char) : isHexDigit c.toLower = isHexDigit c := by
  refine char_ascii (fun c => isHexDigit c.toLower = isHexDigit c) (by decide) (fun c h => ?_) c
  rw [toLower_of_ge c h]

def ipChar (c : Char) : Bool := isHexDigit c || c = ':' || c = '.'

theorem isHexDigit_of_isDigit (c : Char) (h : c.isDigit = true) : isHexDigit c = true := by
  simp [isHexDigit, h]

theorem parseIPv4Fields_chars (s : List Char) (val digLen pos : ℕ)
    (h : parseIPv4Fields val digLen pos s = true) : ∀ c ∈ s, c.isDigit ∨ c = '.' := by
  induction s generalizing val digLen pos with
  | nil => simp
  | cons c s ih =>
    intro a ha
    unfold parseIPv4Fields at h
    rcases List.mem_cons.mp ha with rfl | ha
    · by_contra hn
      obtain ⟨hd, hdot⟩ := not_or.mp hn
      simp [hd, hdot] at h
    · split_ifs at h <;> exact ih _ _ _ h a ha

theorem toLower_of_isDigit (c : Char) (h : c.isDigit = true) : c.toLower = c := by
  refine char_ascii (fun c => c.isDigit = true → c.toLower = c) (by decide)
    (fun c hc _ => toLower_of_ge c hc) c h

@[simp] theorem toLower_eq_dot (c : Char) : c.toLower = '.' ↔ c = '.' :=
  toLower_eq_iff c '.' (by decide)

@[simp] theorem toLower_eq_colon (c : Char) : c.toLower = ':' ↔ c = ':' :=
  toLower_eq_iff c ':' (by decide)

@[simp] theorem toLower_eq_percent (c : Char) : c.toLower = '%' ↔ c = '%' :=
  toLower_eq_iff c '%' (by decide)

theorem parseIPv4Fields_lower (s : List Char) (val digLen pos : ℕ) :
    parseIPv4Fields val digLen pos (lower s) = parseIPv4Fields val digLen pos s := by
  induction s generalizing val digLen pos with
  | nil => rfl
  | cons c s ih =>
    simp only [lower, List.map_cons, parseIPv4Fields, isDigit_toLower, toLower_eq_dot,
      List.map_eq_nil_iff]
    by_cases hd : c.isDigit = true
    · rw [toLower_of_isDigit c hd]
      simp only [hd, if_true]
      rw [← lower, ih]
    · simp only [hd, Bool.false_eq_true, if_false]
      rw [← lower, ih]

theorem parseIPv6Group_lower (k : ℕ) (ellipsis : Bool) (s : List Char) :
    parseIPv6Group k ellipsis (lower s) = (parseIPv6Group k ellipsis s).map
      (Sum.map (fun r => (r.1, r.2.1, lower r.2.2)) (fun r => (r.1, lower r.2))) := by
  have hhex : isHexDigit ∘ Char.toLower = isHexDigit := funext isHexDigit_toLower
  have htake : (lower s).takeWhile isHexDigit = lower (s.takeWhile isHexDigit) := by
    rw [lower, List.takeWhile_map, hhex, lower]
  have hdrop : (lower s).dropWhile isHexDigit = lower (s.dropWhile isHexDigit) := by
    rw [lower, List.dropWhile_map, hhex, lower]
  unfold parseIPv6Group
  simp only [htake, hdrop, parseIPv4Fields_lower, lower_eq_nil, length_lower]
  generalize s.takeWhile isHexDigit = hex
  by_cases hbad : hex = [] ∨ 4 < hex.length
  · simp only [if_pos hbad, Option.map_none]
  simp only [if_neg hbad]
  rcases s.dropWhile isHexDigit with _ | ⟨c, _ | ⟨d, u⟩⟩
  · rfl
  · simp only [lower_cons, toLower_eq_dot, ne_eq, toLower_eq_colon]
    by_cases hdot : c = '.'
    · simp only [if_pos hdot]
      split_ifs <;> rfl
    · simp only [if_neg hdot]
      split_ifs <;> rfl
  · simp only [lower_cons, toLower_eq_dot, ne_eq, toLower_eq_colon]
    by_cases hdot : c = '.'
    · simp only [if_pos hdot]
      split_ifs <;> rfl
    by_cases hc : c = ':' <;> by_cases hd : d = ':' <;> by_cases he : ellipsis = true <;>
      by_cases hu : u = [] <;> simp [hdot, hc, hd, he, hu]

theorem parseIPv6Groups_lower (k : ℕ) (ellipsis : Bool) (s : List Char) :
    parseIPv6Groups k ellipsis (lower s) =
      (parseIPv6Groups k ellipsis s).map (fun r => (r.1, r.2.1, lower r.2.2)) := by
  induction k generalizing ellipsis s with
  | zero => rfl
  | succ k ih =>
    unfold parseIPv6Groups
    rw [parseIPv6Group_lower]
    rcases parseIPv6Group k ellipsis s with _ | r | ⟨e, t⟩
    · rfl
    · rfl
    · exact ih e t

theorem parseIPv6_lower (s : List Char) : parseIPv6 (lower s) = parseIPv6 s := by
  have hpre : [':', ':'].isPrefixOf (lower s) = [':', ':'].isPrefixOf s := by
    have hc (c : Char) : (':' == c.toLower) = (':' == c) := by
      simp only [Bool.beq_eq_decide_eq, eq_comm (a := ':'), toLower_eq_colon]
    rcases s with _ | ⟨a, _ | ⟨b, s⟩⟩ <;> simp only [lower_cons, List.isPrefixOf, hc] <;> rfl
  have hdrop : (lower s).drop 2 = lower (s.drop 2) := by simp only [lower, List.map_drop]
  have hmatch (r : Option (Bool × ℕ × List Char)) :
      (match r.map (fun r => (r.1, r.2.1, lower r.2.2)) with
        | some (ellipsis, k, []) => if k = 0 then !ellipsis else ellipsis
        | _ => false) =
      (match r with
        | some (ellipsis, k, []) => if k = 0 then !ellipsis else ellipsis
        | _ => false) := by
    rcases r with _ | ⟨e, k, _ | ⟨c, t⟩⟩ <;> rfl
  unfold parseIPv6
  rw [hpre, hdrop]
  by_cases h : [':', ':'].isPrefixOf s
  · simp only [h, if_true, Prod.mk.injEq, lower_eq_nil, true_and, parseIPv6Groups_lower, hmatch]
  · simp only [h, Bool.false_eq_true, if_false, Prod.mk.injEq, false_and, parseIPv6Groups_lower,
      hmatch]

theorem parseAddr_lower (s : List Char) (h : '%' ∉ s) : parseAddr (lower s) = parseAddr s := by
  have hsep : ((fun c => decide (c = '.' ∨ c = ':' ∨ c = '%')) ∘ Char.toLower) =
      fun c => decide (c = '.' ∨ c = ':' ∨ c = '%') := by
    funext c
    simp only [Function.comp_apply, toLower_eq_dot, toLower_eq_colon, toLower_eq_percent]
  have hfind : (lower s).find? (fun c => decide (c = '.' ∨ c = ':' ∨ c = '%')) =
      s.find? (fun c => decide (c = '.' ∨ c = ':' ∨ c = '%')) := by
    rw [lower, List.find?_map, hsep]
    cases hf : s.find? (fun c => decide (c = '.' ∨ c = ':' ∨ c = '%')) with
    | none => rfl
    | some c =>
      have hc : c = '.' ∨ c = ':' ∨ c = '%' := by simpa using List.find?_some hf
      rcases hc with rfl | rfl | rfl <;> rfl
  have hl : '%' ∉ lower s := (mem_lower_iff s '%' (by decide)).not.mpr h
  simp only [parseAddr, hfind, parseIPv4Fields_lower, cut_of_notMem '%' _ h, cut_of_notMem '%' _ hl,
    parseIPv6_lower]

theorem parseIPv6Group_chars (k : ℕ) (ellipsis : Bool) (s : List Char)
    (r : (Bool × ℕ × List Char) ⊕ (Bool × List Char)) (h : parseIPv6Group k ellipsis s = some r) :
    ∀ c ∈ s, ipChar c = true ∨ c ∈ r.elim (·.2.2) (·.2) := by
  intro c hc
  rw [← List.takeWhile_append_dropWhile (p := isHexDigit) (l := s)] at hc
  rcases List.mem_append.mp hc with hc | hc
  · exact Or.inl (by simp [ipChar, List.mem_takeWhile_imp hc])
  unfold parseIPv6Group at h
  dsimp only at h
  split at h
  · cases h
  have hdrop : c ∈ s := (List.dropWhile_sublist _).subset hc
  rcases hrest : s.dropWhile isHexDigit with _ | ⟨d, t⟩
  · exact absurd (hrest ▸ hc) List.not_mem_nil
  rw [hrest] at h hc
  dsimp only at h
  by_cases hdot : d = '.'
  · -- the trailing IPv4 address runs from the group before the dot to the end
    rw [if_pos hdot] at h
    have hv : parseIPv4Fields 0 0 0 s = true := by
      by_contra hn
      simp [hn] at h
    rcases parseIPv4Fields_chars s 0 0 0 hv c hdrop with hd | hd
    · exact Or.inl (by simp [ipChar, isHexDigit_of_isDigit c hd])
    · exact Or.inl (by simp [ipChar, hd])
  rw [if_neg hdot] at h
  by_cases hcol : d = ':'
  · subst hcol
    rw [if_neg (by simp)] at h
    rcases List.mem_cons.mp hc with rfl | hc
    · exact Or.inl (by simp [ipChar])
    rcases t with _ | ⟨e, u⟩
    · cases h
    dsimp only at h
    split_ifs at h with he hell hu
    · cases h
      exact Or.inr hc
    all_goals
      cases h
      obtain rfl : e = ':' := by simpa using he
      rcases List.mem_cons.mp hc with rfl | hc
      · exact Or.inl (by simp [ipChar])
    · exact absurd (hu ▸ hc) List.not_mem_nil
    · exact Or.inr hc
  · rw [if_pos hcol] at h
    cases h

theorem parseIPv6Groups_chars (k : ℕ) (ellipsis : Bool) (s : List Char) (r : Bool × ℕ × List Char)
    (h : parseIPv6Groups k ellipsis s = some r) : ∀ c ∈ s, ipChar c = true ∨ c ∈ r.2.2 := by
  induction k generalizing ellipsis s with
  | zero =>
    intro c hc
    cases h
    exact Or.inr hc
  | succ k ih =>
    intro c hc
    unfold parseIPv6Groups at h
    rcases hg : parseIPv6Group k ellipsis s with _ | r' | ⟨e, t⟩
    · rw [hg] at h
      cases h
    · rw [hg] at h
      cases h
      exact parseIPv6Group_chars k ellipsis s _ hg c hc
    · rw [hg] at h
      rcases parseIPv6Group_chars k ellipsis s _ hg c hc with hip | ht
      · exact Or.inl hip
      · exact ih e t h c ht

theorem parseIPv6_chars (s : List Char) (h : parseIPv6 s = true) : ∀ c ∈ s, ipChar c = true := by
  unfold parseIPv6 at h
  by_cases hpre : [':', ':'].isPrefixOf s = true
  · obtain ⟨t, rfl⟩ := List.isPrefixOf_iff_prefix.mp hpre
    simp only [hpre, if_true, Prod.mk.injEq, true_and] at h
    intro c hc
    rcases List.mem_append.mp hc with hc | hc
    · have : c = ':' := by simpa using hc
      simp [ipChar, this]
    · have ht : ([':', ':'] ++ t).drop 2 = t := rfl
      rw [ht] at h
      by_cases hnil : t = []
      · exact absurd (hnil ▸ hc) List.not_mem_nil
      rw [if_neg hnil] at h
      split at h
      · rename_i hg
        exact (parseIPv6Groups_chars _ _ _ _ hg c hc).resolve_right List.not_mem_nil
      · cases h
  · simp only [hpre, Bool.false_eq_true, if_false, Prod.mk.injEq, false_and] at h
    intro c hc
    split at h
    · rename_i hg
      exact (parseIPv6Groups_chars _ _ _ _ hg c hc).resolve_right List.not_mem_nil
    · cases h

theorem parseIP_chars (s : List Char) (h : parseIP s = true) : ∀ c ∈ s, ipChar c = true := by
  have hs : parseAddr s = some .v4 ∨ parseAddr s = some (.v6 []) := of_decide_eq_true h
  intro c hc
  rcases hs with hs | hs
  · have hv4 : parseIPv4Fields 0 0 0 s = true := by
      unfold parseAddr at hs
      split at hs
      · by_contra hn
        simp [hn] at hs
      · split at hs <;> split_ifs at hs <;> simp at hs
      · cases hs
    rcases parseIPv4Fields_chars s 0 0 0 hv4 c hc with hd | hd
    · simp [ipChar, isHexDigit_of_isDigit c hd]
    · simp [ipChar, hd]
  · unfold parseAddr at hs
    split at hs
    · split_ifs at hs
      simp at hs
    · split at hs
      · rename_i a hcut
        split_ifs at hs with hv6
        have ha : a = s := by
          have := cut_none '%' s (by rw [hcut])
          rw [hcut] at this
          exact (Prod.mk.inj this).1
        exact parseIPv6_chars s (ha ▸ hv6) c hc
      · split_ifs at hs with hz
        simp only [Option.some.injEq, AddrFamily.v6.injEq] at hs
        exact absurd hs hz.1
    · cases hs

theorem parseIP_lower (s : List Char) (h : '%' ∉ s) : parseIP (lower s) = parseIP s := by
  simp only [parseIP, parseAddr_lower s h]

theorem parseIP_colon (s : List Char) (h : parseIP s = true) (hc : ':' ∈ s) :
    parseAddr s = some (.v6 []) := by
  refine (of_decide_eq_true h).resolve_left (fun hs => ?_)
  unfold parseAddr at hs
  split at hs
  · split_ifs at hs with hv4
    rcases parseIPv4Fields_chars s 0 0 0 hv4 ':' hc with hd | hd
    · exact absurd hd (by decide)
    · exact absurd hd (by decide)
  · split at hs <;> split_ifs at hs <;> simp at hs
  · cases hs

theorem splitHostPort_joinHostPort (host port : List Char)
    (hh : '[' ∉ host ∧ ']' ∉ host) (hp : ':' ∉ port ∧ '[' ∉ port ∧ ']' ∉ port) :
    splitHostPort (joinHostPort host port) = some (host, port) := by
  obtain ⟨ho, hb⟩ := hh
  obtain ⟨hcol, hpo, hpb⟩ := hp
  by_cases hc : ':' ∈ host
  · rw [joinHostPort, if_pos hc, List.cons_append, splitHostPort]
    simp only [cut_append ']' host (':' :: port) hb]
    rw [if_neg]
    simp [hcol, hpb, ho, hpo]
  · rw [joinHostPort, if_neg hc, splitHostPort]
    · simp only [cutLast_append ':' host port hcol]
      rw [if_neg]
      simp [hc, ho, hb, hpo, hpb]
    · intro t ht
      cases host with
      | nil => simp at ht
      | cons c host =>
        rw [List.cons_append, List.cons.injEq] at ht
        exact ho (ht.1 ▸ List.mem_cons_self)

end Faultline
