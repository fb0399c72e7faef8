import Faultline.PrefixCode

/-! The strings of a script (sequences of 16-bit units) and the text that `JSON.stringify` prints for
a tree of values, for any way to print a number. -/
namespace Faultline.Script

abbrev Text := List UInt16

def lit (s : String) : Text := s.toList.map (fun c => c.toNat.toUInt16)

/-! Strings. -/

def isLead (u : UInt16) : Bool := 0xD800 ≤ u.toNat ∧ u.toNat < 0xDC00

def isTrail (u : UInt16) : Bool := 0xDC00 ≤ u.toNat ∧ u.toNat < 0xE000

def hexDigit (n : ℕ) : UInt16 := if n < 10 then (48 + n).toUInt16 else (87 + n).toUInt16

def unicodeEscape (u : UInt16) : Text :=
  [92, 117, hexDigit (u.toNat / 4096), hexDigit (u.toNat / 256 % 16), hexDigit (u.toNat / 16 % 16),
    hexDigit (u.toNat % 16)]

def quoteUnit (u : UInt16) : Text :=
  if u = 8 then [92, 98]
  else if u = 9 then [92, 116]
  else if u = 10 then [92, 110]
  else if u = 12 then [92, 102]
  else if u = 13 then [92, 114]
  else if u = 34 then [92, 34]
  else if u = 92 then [92, 92]
  else if u.toNat < 32 ∨ isLead u ∨ isTrail u then unicodeEscape u
  else [u]

/-- The units of a string between its quotes. A lead that a trail follows is printed with it as it
is; `paired` says that the next unit is that trail. -/
def quoteUnits : Bool → Text → Text
  | _, [] => []
  | paired, u :: rest =>
    if paired then u :: quoteUnits false rest
    else if isLead u && rest.head?.any isTrail then u :: quoteUnits true rest
    else quoteUnit u ++ quoteUnits false rest

def quote (s : Text) : Text := 34 :: quoteUnits false s ++ [34]

def hexValue (u : UInt16) : Option ℕ :=
  if 48 ≤ u.toNat ∧ u.toNat < 58 then some (u.toNat - 48)
  else if 97 ≤ u.toNat ∧ u.toNat < 103 then some (u.toNat - 87)
  else if 65 ≤ u.toNat ∧ u.toNat < 71 then some (u.toNat - 55)
  else none

def readHex (a b c d : UInt16) : Option UInt16 := do
  let a ← hexValue a
  let b ← hexValue b
  let c ← hexValue c
  let d ← hexValue d
  return (((a*16 + b)*16 + c)*16 + d).toUInt16

def unescape (e : UInt16) : Option UInt16 :=
  if e = 34 ∨ e = 92 ∨ e = 47 then some e
  else if e = 98 then some 8
  else if e = 116 then some 9
  else if e = 110 then some 10
  else if e = 102 then some 12
  else if e = 114 then some 13
  else none

def readString : Text → Option (Text × Text)
  | [] => none
  | u :: rest =>
    if u = 34 then some ([], rest)
    else if u = 92 then
      match rest with
      | [] => none
      | e :: r =>
        if e = 117 then
          match r with
          | a :: b :: c :: d :: r' => do
            let v ← readHex a b c d
            let (s, t) ← readString r'
            return (v :: s, t)
          | _ => none
        else do
          let v ← unescape e
          let (s, t) ← readString r
          return (v :: s, t)
    else if u.toNat < 32 then none
    else do
      let (s, t) ← readString rest
      return (u :: s, t)

theorem hexValue_hexDigit : ∀ n < 16, hexValue (hexDigit n) = some n := by decide

theorem readHex_digits (u : UInt16) :
    readHex (hexDigit (u.toNat / 4096)) (hexDigit (u.toNat / 256 % 16)) (hexDigit (u.toNat / 16 % 16))
      (hexDigit (u.toNat % 16)) = some u := by
  have hlt := u.toNat_lt
  have hvalue : ((u.toNat/4096*16 + u.toNat/256%16)*16 + u.toNat/16%16)*16 + u.toNat%16 = u.toNat := by
    omega
  rw [readHex, hexValue_hexDigit _ (by omega), hexValue_hexDigit _ (by omega),
    hexValue_hexDigit _ (by omega), hexValue_hexDigit _ (by omega)]
  simp only [Option.bind_eq_bind, Option.bind_some, Option.pure_def, hvalue]
  rw [Nat.toUInt16_eq, UInt16.ofNat_toNat]

theorem readString_plain (u : UInt16) (t s r : Text) (h34 : u ≠ 34) (h92 : u ≠ 92) (h32 : 32 ≤ u.toNat)
    (h : readString t = some (s, r)) : readString (u :: t) = some (u :: s, r) := by
  have h32' : ¬u.toNat < 32 := by omega
  rw [readString.eq_def]
  simp only [h34, h92, h32', h, if_false]
  rfl

theorem surrogate_plain (u : UInt16) (h : isLead u = true ∨ isTrail u = true) :
    u ≠ 34 ∧ u ≠ 92 ∧ 32 ≤ u.toNat := by
  have hbig : 0xD800 ≤ u.toNat := by
    simp only [isLead, isTrail, decide_eq_true_eq] at h
    omega
  refine ⟨?_, ?_, by omega⟩
  · rintro rfl
    exact absurd hbig (by decide)
  · rintro rfl
    exact absurd hbig (by decide)

theorem readString_escape (u : UInt16) (t s r : Text) (h : readString t = some (s, r)) :
    readString (unicodeEscape u ++ t) = some (u :: s, r) := by
  simp only [unicodeEscape, List.cons_append, List.nil_append]
  rw [readString, if_neg (by decide), if_pos rfl, if_pos rfl, readHex_digits, h]
  rfl

theorem readString_short (u e : UInt16) (t s r : Text) (he : e ≠ 117) (hu : unescape e = some u)
    (h : readString t = some (s, r)) : readString ([92, e] ++ t) = some (u :: s, r) := by
  simp only [List.cons_append, List.nil_append]
  rw [readString.eq_def]
  simp only [he, hu, h, if_true, if_false]
  rfl

theorem readString_quoteUnit (u : UInt16) (t s r : Text) (h : readString t = some (s, r)) :
    readString (quoteUnit u ++ t) = some (u :: s, r) := by
  unfold quoteUnit
  split_ifs with h8 h9 h10 h12 h13 h34 h92 hesc
  · exact readString_short u 98 t s r (by decide) (by rw [h8]; rfl) h
  · exact readString_short u 116 t s r (by decide) (by rw [h9]; rfl) h
  · exact readString_short u 110 t s r (by decide) (by rw [h10]; rfl) h
  · exact readString_short u 102 t s r (by decide) (by rw [h12]; rfl) h
  · exact readString_short u 114 t s r (by decide) (by rw [h13]; rfl) h
  · exact readString_short u 34 t s r (by decide) (by rw [h34]; rfl) h
  · exact readString_short u 92 t s r (by decide) (by rw [h92]; rfl) h
  · exact readString_escape u t s r h
  · exact readString_plain u t s r h34 h92 (by omega) h

theorem readString_quoteUnits (s r : Text) (paired : Bool)
    (hpaired : paired = true → s.head?.any isTrail = true) :
    readString (quoteUnits paired s ++ 34 :: r) = some (s, r) := by
  induction s generalizing paired with
  | nil =>
    rw [quoteUnits, List.nil_append, readString.eq_def]
    rfl
  | cons u rest ih =>
    rw [quoteUnits]
    split_ifs with hp hlead
    · obtain ⟨h34, h92, h32⟩ := surrogate_plain u (Or.inr (hpaired hp))
      exact readString_plain u _ rest r h34 h92 h32 (ih false (by intro h; cases h))
    · rw [Bool.and_eq_true] at hlead
      obtain ⟨h34, h92, h32⟩ := surrogate_plain u (Or.inl hlead.1)
      exact readString_plain u _ rest r h34 h92 h32 (ih true (fun _ => hlead.2))
    · rw [List.append_assoc]
      exact readString_quoteUnit u _ rest r (ih false (by intro h; cases h))

theorem readString_quote (s r : Text) : readString ((quote s ++ r).tail) = some (s, r) := by
  rw [quote, List.cons_append, List.cons_append, List.tail_cons, List.append_assoc]
  exact readString_quoteUnits s r false (by intro h; cases h)

theorem quote_code (s s' r r' : Text) (h : quote s ++ r = quote s' ++ r') : s = s' ∧ r = r' := by
  have heq := readString_quote s r
  rw [h, readString_quote s' r', Option.some.injEq, Prod.mk.injEq] at heq
  exact ⟨heq.1.symm, heq.2.symm⟩

/-! Values. -/

/-- What a text of JSON can stand for. Numbers are taken by value, so that `0` and `-0` are one. The
fields of an object are kept in the order in which they are enumerated. -/
inductive Value (ν : Type) where
  | null
  | bool (b : Bool)
  | num (n : ν)
  | str (s : Text)
  | arr (items : List (Value ν))
  | obj (fields : List (Text × Value ν))

section Stringify
variable {ν : Type} (number : ν → Text)

mutual

/-- `JSON.stringify`, given how it prints a number. -/
def stringify : Value ν → Text
  | .null => lit "null"
  | .bool b => if b then lit "true" else lit "false"
  | .num n => number n
  | .str s => quote s
  | .arr items => 91 :: [44].intercalate (stringifyItems items) ++ [93]
  | .obj fields => 123 :: [44].intercalate (stringifyFields fields) ++ [125]

def stringifyItems : List (Value ν) → List Text
  | [] => []
  | v :: rest => stringify v :: stringifyItems rest

def stringifyFields : List (Text × Value ν) → List Text
  | [] => []
  | (key, v) :: rest => (quote key ++ 58 :: stringify v) :: stringifyFields rest

end

def numberUnit (u : UInt16) : Bool := (48 ≤ u.toNat && u.toNat < 58) || u = 45 || u = 43 || u = 46 || u = 101

/-- What is documented of the text of a number: digits with a sign, a point or an exponent, which
belong to one number. -/
structure NumberText : Prop where
  digits : ∀ n, number n ≠ [] ∧ ∀ u ∈ number n, numberUnit u = true
  injective : Function.Injective number

def textStop (r : Text) : Prop := ∀ u ∈ r.head?, numberUnit u = false

theorem textStop_cons (u : UInt16) (hu : numberUnit u = false) (r : Text) : textStop (u :: r) := by
  intro v hv
  cases hv
  exact hu

theorem stringifyItems_eq (l : List (Value ν)) : stringifyItems number l = l.map (stringify number) := by
  induction l with
  | nil => rfl
  | cons v l ih => rw [stringifyItems, ih, List.map_cons]

def fieldText (e : Text × Value ν) : Text := quote e.1 ++ 58 :: stringify number e.2

theorem stringifyFields_eq (l : List (Text × Value ν)) :
    stringifyFields number l = l.map (fieldText number) := by
  induction l with
  | nil => rfl
  | cons e l ih => rw [stringifyFields, ih, List.map_cons, fieldText]

theorem mapM_some {α β : Type} (f : α → β) (l : List α) : l.mapM (fun a => some (f a)) = some (l.map f) := by
  induction l with
  | nil => rfl
  | cons a l ih =>
    rw [List.mapM_cons, ih]
    rfl

inductive Kind where
  | null
  | bool
  | num
  | str
  | arr
  | obj

def kind : Value ν → Kind
  | .null => .null
  | .bool _ => .bool
  | .num _ => .num
  | .str _ => .str
  | .arr _ => .arr
  | .obj _ => .obj

def kindOf (u : UInt16) : Kind :=
  if u = 110 then .null
  else if u = 116 ∨ u = 102 then .bool
  else if u = 34 then .str
  else if u = 91 then .arr
  else if u = 123 then .obj
  else .num

variable {number}

theorem stringify_head (hn : NumberText number) (v : Value ν) :
    ∃ u t, stringify number v = u :: t ∧ kindOf u = kind v ∧ u ≠ 93 ∧ u ≠ 125 := by
  cases v with
  | null => exact ⟨_, _, rfl, rfl, by decide, by decide⟩
  | bool b =>
    cases b with
    | false => exact ⟨_, _, rfl, rfl, by decide, by decide⟩
    | true => exact ⟨_, _, rfl, rfl, by decide, by decide⟩
  | num n =>
    obtain ⟨hne, hall⟩ := hn.digits n
    cases htext : number n with
    | nil => exact absurd htext hne
    | cons u t =>
      have hu : numberUnit u = true := hall u (by rw [htext]; exact List.mem_cons_self)
      have hother (w : UInt16) (hw : numberUnit w = false) : u ≠ w := by
        rintro rfl
        rw [hu] at hw
        cases hw
      refine ⟨u, t, htext, ?_, hother 93 (by decide), hother 125 (by decide)⟩
      rw [kindOf, if_neg (hother 110 (by decide)),
        if_neg (not_or.mpr ⟨hother 116 (by decide), hother 102 (by decide)⟩),
        if_neg (hother 34 (by decide)), if_neg (hother 91 (by decide)), if_neg (hother 123 (by decide))]
      rfl
  | str s => exact ⟨_, _, rfl, rfl, by decide, by decide⟩
  | arr items => exact ⟨_, _, rfl, rfl, by decide, by decide⟩
  | obj fields => exact ⟨_, _, rfl, rfl, by decide, by decide⟩

theorem kind_of_text (hn : NumberText number) (v w : Value ν) (r s : Text)
    (h : stringify number v ++ r = stringify number w ++ s) : kind v = kind w := by
  obtain ⟨a, t, ha, hka, -⟩ := stringify_head hn v
  obtain ⟨b, u, hb, hkb, -⟩ := stringify_head hn w
  rw [ha, hb] at h
  rw [← hka, ← hkb, List.head_eq_of_cons_eq h]

section Code
variable {F : Set (Value ν)}

theorem items_code (hn : NumberText number) (h : PrefixCode textStop (fun v => some (stringify number v)) F)
    (l m : List (Value ν)) (hl : ∀ v ∈ l, v ∈ F) (hm : ∀ v ∈ m, v ∈ F) (r s : Text)
    (heq : stringify number (.arr l) ++ r = stringify number (.arr m) ++ s) : l = m ∧ r = s := by
  have hlist := h.list (textStop_cons 44 (by decide)) (textStop_cons 93 (by decide)) (by decide)
    (fun v _ t ht => by
      obtain ⟨u, t', hhead, -, hclose, -⟩ := stringify_head hn v
      cases ht
      exact ⟨u, by rw [hhead]; rfl, hclose⟩)
  simp only [stringify, stringifyItems_eq] at heq
  exact hlist l hl m hm _ _ r s (congrArg (Option.map _) (mapM_some _ l))
    (congrArg (Option.map _) (mapM_some _ m)) trivial trivial
    (List.tail_eq_of_cons_eq heq)

theorem field_code (h : PrefixCode textStop (fun v => some (stringify number v)) F) :
    PrefixCode textStop (fun e => some (fieldText number e)) {e | e.2 ∈ F} := by
  rintro ⟨key, v⟩ hv ⟨key', v'⟩ hv' t u r s ht hu hr hs heq
  cases ht
  cases hu
  rw [fieldText, fieldText, List.append_assoc, List.append_assoc] at heq
  obtain ⟨hkey, hrest⟩ := quote_code _ _ _ _ heq
  obtain ⟨hvv, hrs⟩ := h v hv v' hv' _ _ r s rfl rfl hr hs (List.tail_eq_of_cons_eq hrest)
  exact ⟨Prod.ext hkey hvv, hrs⟩

theorem fields_code (h : PrefixCode textStop (fun v => some (stringify number v)) F)
    (l m : List (Text × Value ν)) (hl : ∀ e ∈ l, e.2 ∈ F) (hm : ∀ e ∈ m, e.2 ∈ F) (r s : Text)
    (heq : stringify number (.obj l) ++ r = stringify number (.obj m) ++ s) : l = m ∧ r = s := by
  have hlist := (field_code h).list (textStop_cons 44 (by decide)) (textStop_cons 125 (by decide))
    (by decide) (fun e _ t ht => by
      cases ht
      exact ⟨34, rfl, by decide⟩)
  simp only [stringify, stringifyFields_eq] at heq
  exact hlist l hl m hm _ _ r s (congrArg (Option.map _) (mapM_some _ l))
    (congrArg (Option.map _) (mapM_some _ m)) trivial trivial
    (List.tail_eq_of_cons_eq heq)

end Code

/-- The text of a value says where it ends. The induction is on the size of the values. -/
theorem stringify_code (hn : NumberText number) (n : ℕ) :
    PrefixCode textStop (fun v => some (stringify number v)) {v : Value ν | sizeOf v < n} := by
  induction n with
  | zero =>
    intro v hv
    exact absurd hv (Nat.not_lt_zero _)
  | succ n ih =>
    intro v hv w hw t u r s ht hu hr hs heq
    cases ht
    cases hu
    have hkind := kind_of_text hn v w r s heq
    cases v with
    | null =>
      cases w with
      | null => exact ⟨rfl, List.append_cancel_left heq⟩
      | _ => exact Kind.noConfusion hkind
    | bool b =>
      cases w with
      | bool b' =>
        cases b with
        | false =>
          cases b' with
          | false => exact ⟨rfl, List.append_cancel_left heq⟩
          | true => exact absurd (List.head_eq_of_cons_eq heq) (by decide)
        | true =>
          cases b' with
          | false => exact absurd (List.head_eq_of_cons_eq heq) (by decide)
          | true => exact ⟨rfl, List.append_cancel_left heq⟩
      | _ => exact Kind.noConfusion hkind
    | num x =>
      cases w with
      | num y =>
        have hcode : PrefixCode textStop (fun n => some (number n)) Set.univ := by
          apply prefixCode_of_all numberUnit
          · intro a _ t ht
            cases ht
            exact (hn.digits a).2
          · intro a _ b _ t ht hb
            cases ht
            exact (hn.injective (Option.some.inj hb)).symm
        obtain ⟨hxy, hrs⟩ := hcode x trivial y trivial _ _ r s rfl rfl hr hs heq
        exact ⟨by rw [hxy], hrs⟩
      | _ => exact Kind.noConfusion hkind
    | str a =>
      cases w with
      | str b =>
        obtain ⟨hab, hrs⟩ := quote_code a b r s heq
        exact ⟨by rw [hab], hrs⟩
      | _ => exact Kind.noConfusion hkind
    | arr l =>
      cases w with
      | arr m =>
        have hsmall (l : List (Value ν)) (h : sizeOf (Value.arr l) < n + 1) : ∀ v ∈ l, sizeOf v < n := by
          intro v hv
          have hlt := List.sizeOf_lt_of_mem hv
          simp only [Value.arr.sizeOf_spec] at h
          omega
        obtain ⟨hlm, hrs⟩ := items_code hn ih l m (hsmall l hv) (hsmall m hw) r s heq
        exact ⟨by rw [hlm], hrs⟩
      | _ => exact Kind.noConfusion hkind
    | obj l =>
      cases w with
      | obj m =>
        have hsmall (l : List (Text × Value ν)) (h : sizeOf (Value.obj l) < n + 1) :
            ∀ e ∈ l, sizeOf e.2 < n := by
          rintro ⟨key, v⟩ hv
          have hlt := List.sizeOf_lt_of_mem hv
          simp only [Value.obj.sizeOf_spec, Prod.mk.sizeOf_spec] at h hlt ⊢
          omega
        obtain ⟨hlm, hrs⟩ := fields_code ih l m (hsmall l hv) (hsmall m hw) r s heq
        exact ⟨by rw [hlm], hrs⟩
      | _ => exact Kind.noConfusion hkind

theorem stringify_injective (hn : NumberText number) : Function.Injective (stringify number) := by
  intro v w h
  have hcode := stringify_code hn (sizeOf v + sizeOf w + 1)
  refine hcode.injective ?_ v w ?_ ?_ (stringify number v) rfl (by rw [h])
  · intro u hu
    cases hu
  · change sizeOf v < sizeOf v + sizeOf w + 1
    omega
  · change sizeOf w < sizeOf v + sizeOf w + 1
    omega

/-! Arrays of strings. -/

def parseItems : ℕ → Text → Option (List Text)
  | n+1, u :: t =>
    if u = 34 then
      match readString t with
      | some (s, v :: r) =>
        if v = 44 then (parseItems n r).map (s :: ·)
        else if v = 93 ∧ r = [] then some [s]
        else none
      | _ => none
    else none
  | _, _ => none

/-- `JSON.parse` on the text of an array of strings; `none` is a syntax error. -/
def parseStrings (t : Text) : Option (List Text) :=
  if t = [91, 93] then some []
  else if t.head? = some 91 then parseItems t.length t.tail
  else none

theorem intercalate_quotes (a b : Text) (l : List Text) :
    [44].intercalate ((a :: b :: l).map quote) = quote a ++ 44 :: [44].intercalate ((b :: l).map quote) := by
  rw [List.map_cons, List.map_cons, List.intercalate_cons_cons]
  simp

theorem parseItems_last (n : ℕ) (a : Text) : parseItems (n+1) (quote a ++ [93]) = some [a] := by
  have hread := readString_quote a [93]
  simp only [quote, List.cons_append, List.tail_cons] at hread ⊢
  rw [parseItems, if_pos rfl, hread]
  rfl

theorem parseItems_next (n : ℕ) (a r : Text) :
    parseItems (n+1) (quote a ++ 44 :: r) = (parseItems n r).map (a :: ·) := by
  have hread := readString_quote a (44 :: r)
  simp only [quote, List.cons_append, List.tail_cons] at hread ⊢
  rw [parseItems, if_pos rfl, hread]
  rfl

theorem parseItems_quotes (a : Text) (l : List Text) (n : ℕ) (hn : l.length < n) :
    parseItems n ([44].intercalate ((a :: l).map quote) ++ [93]) = some (a :: l) := by
  induction l generalizing a n with
  | nil =>
    obtain ⟨n, rfl⟩ := Nat.exists_eq_succ_of_ne_zero (Nat.ne_of_gt hn)
    simpa using parseItems_last n a
  | cons b l ih =>
    obtain ⟨n, rfl⟩ := Nat.exists_eq_succ_of_ne_zero (Nat.ne_of_gt (Nat.zero_lt_of_lt hn))
    rw [intercalate_quotes, List.append_assoc, List.cons_append, parseItems_next,
      ih b n (Nat.lt_of_succ_lt_succ hn), Option.map_some]

/-- `JSON.stringify` on an array of strings. -/
def stringifyStrings (l : List Text) : Text := 91 :: [44].intercalate (l.map quote) ++ [93]

theorem length_le_intercalate (l : List Text) : l.length ≤ ([44].intercalate (l.map quote)).length := by
  induction l with
  | nil => exact Nat.zero_le _
  | cons a l ih =>
    have hquote : 1 ≤ (quote a).length := by simp [quote]
    cases l with
    | nil => simpa using hquote
    | cons b l =>
      rw [intercalate_quotes, List.length_append]
      simp only [List.length_cons] at ih ⊢
      omega

theorem parseStrings_stringify (l : List Text) : parseStrings (stringifyStrings l) = some l := by
  cases l with
  | nil => rfl
  | cons a l =>
    have hlen := length_le_intercalate (a :: l)
    have hne : stringifyStrings (a :: l) ≠ [91, 93] := by
      intro h
      have hlength := congrArg List.length h
      simp only [stringifyStrings, List.cons_append, List.length_cons, List.length_append,
        List.length_nil] at hlength hlen
      omega
    have hhead : (stringifyStrings (a :: l)).head? = some 91 := rfl
    rw [parseStrings, if_neg hne, if_pos hhead]
    apply parseItems_quotes
    simp only [stringifyStrings, List.cons_append, List.length_cons, List.length_append] at hlen ⊢
    omega

theorem stringifyStrings_injective : Function.Injective stringifyStrings := by
  intro l m h
  have hread := parseStrings_stringify l
  rw [h, parseStrings_stringify] at hread
  exact (Option.some.inj hread).symm

end Stringify

end Faultline.Script
