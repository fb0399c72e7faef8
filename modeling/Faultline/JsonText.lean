import Faultline.PrefixCode
import Faultline.Standard

/-! The text that `encoding/json` prints, for any way to print a float. On values of one shape
(each place always holds a string, an integer, a list and so on) the text says which value it is. -/
namespace Faultline

mutual

/-- `json.Marshal`, given how it prints a float. -/
def Json.print (floatText : Float64 → Option (List Char)) : Json → Option (List Char)
  | .null => some "null".toList
  | .bool b => some (if b then "true".toList else "false".toList)
  | .int n => some (itoa n)
  | .float x => floatText x
  | .str s => some (jsonString s)
  | .arr items =>
    (Json.printItems floatText items).map (fun t => '[' :: [','].intercalate t ++ [']'])
  | .obj fields => (Json.printFields floatText fields).map
      (fun t => Char.ofNat 123 :: [','].intercalate t ++ [Char.ofNat 125])

def Json.printItems (floatText : Float64 → Option (List Char)) : List Json → Option (List (List Char))
  | [] => some []
  | j :: rest =>
    match Json.print floatText j, Json.printItems floatText rest with
    | some t, some ts => some (t :: ts)
    | _, _ => none

def Json.printFields (floatText : Float64 → Option (List Char)) :
    List (String × Json) → Option (List (List Char))
  | [] => some []
  | (key, j) :: rest =>
    match Json.print floatText j, Json.printFields floatText rest with
    | some t, some ts => some ((jsonString key ++ ':' :: t) :: ts)
    | _, _ => none

end

def numberChar (c : Char) : Bool := c.isDigit || c = '-' || c = '+' || c = '.' || c = 'e'

/-- What is documented of the text of a float: a number, which reads back as the float. -/
structure FloatText (floatText : Float64 → Option (List Char)) : Prop where
  number : ∀ x t, floatText x = some t → t ≠ [] ∧ ∀ c ∈ t, numberChar c = true
  injective : ∀ x y t, floatText x = some t → floatText y = some t → x = y

/-- `marshalJSON` is `encoding/json`. -/
def Library.PrintsJSON (lib : Library) : Prop :=
  ∃ floatText, FloatText floatText ∧
    ∀ j, lib.marshalJSON j = (j.print floatText).map (fun t => bytesOf (String.ofList t))

/-! Strings. -/

def hexValue (c : Char) : ℕ := "0123456789abcdef".toList.idxOf c

theorem hexValue_digitChar : ∀ n < 16, hexValue (Nat.digitChar n) = n := by decide

def readJSONChar : List Char → Option (Char × List Char)
  | '\\' :: 'u' :: a :: b :: c :: d :: r =>
    some (Char.ofNat (((hexValue a*16 + hexValue b)*16 + hexValue c)*16 + hexValue d), r)
  | '\\' :: c :: r =>
    some (if c = 'n' then '\n' else if c = 'r' then '\r' else if c = 't' then '\t'
      else if c = 'b' then Char.ofNat 8 else if c = 'f' then Char.ofNat 12 else c, r)
  | c :: r => some (c, r)
  | [] => none

theorem readJSONChar_print (c : Char) (r : List Char) : readJSONChar (jsonChar c ++ r) = some (c, r) := by
  have hnat (n : ℕ) (hn : n < 32) (h : c.toNat = n) : c = Char.ofNat n := by
    rw [← h]
    exact (Char.ofNat_toNat c).symm
  unfold jsonChar
  split_ifs with h1 h2 h3 h4 h5 h6 h7 h8
  · subst h1
    rfl
  · subst h2
    rfl
  · subst h3
    rfl
  · subst h4
    rfl
  · subst h5
    rfl
  · rw [hnat 8 (by decide) h6]
    rfl
  · rw [hnat 12 (by decide) h7]
    rfl
  · have hsmall : c.toNat < 65536 := by
      rcases h8 with h | h | h | h | h | h
      · omega
      · rw [h]
        decide
      · rw [h]
        decide
      · rw [h]
        decide
      · omega
      · omega
    simp only [List.map_cons, List.map_nil, List.cons_append, List.nil_append, readJSONChar,
      hexValue_digitChar _ (show c.toNat/4096 < 16 by omega),
      hexValue_digitChar _ (show c.toNat/256%16 < 16 by omega),
      hexValue_digitChar _ (show c.toNat/16%16 < 16 by omega),
      hexValue_digitChar _ (show c.toNat%16 < 16 by omega)]
    have hvalue : ((c.toNat/4096*16 + c.toNat/256%16)*16 + c.toNat/16%16)*16 + c.toNat%16 = c.toNat := by
      omega
    rw [hvalue, Char.ofNat_toNat]
  · rw [List.singleton_append]
    unfold readJSONChar
    split
    · next heq => exact absurd (List.head_eq_of_cons_eq heq) h2
    · next heq => exact absurd (List.head_eq_of_cons_eq heq) h2
    · next heq =>
      obtain ⟨rfl, rfl⟩ := List.cons.inj heq
      rfl
    · next heq => cases heq

theorem jsonChar_head (c : Char) : ∃ d t, jsonChar c = d :: t ∧ d ≠ '"' := by
  unfold jsonChar
  split_ifs with h1
  all_goals first
    | exact ⟨_, _, rfl, by decide⟩
    | exact ⟨c, [], rfl, h1⟩

theorem jsonString_code (s t : String) (r u : List Char) (h : jsonString s ++ r = jsonString t ++ u) :
    s = t ∧ r = u := by
  have hbody (a b : List Char) (h : a.flatMap jsonChar ++ '"' :: r = b.flatMap jsonChar ++ '"' :: u) :
      a = b ∧ r = u := by
    induction a generalizing b with
    | nil =>
      cases b with
      | nil => exact ⟨rfl, List.tail_eq_of_cons_eq h⟩
      | cons d b =>
        obtain ⟨e, w, he, hne⟩ := jsonChar_head d
        rw [List.flatMap_cons, he] at h
        exact absurd (List.head_eq_of_cons_eq h) hne.symm
    | cons c a ih =>
      cases b with
      | nil =>
        obtain ⟨e, w, he, hne⟩ := jsonChar_head c
        rw [List.flatMap_cons, he] at h
        exact absurd (List.head_eq_of_cons_eq h) hne
      | cons d b =>
        rw [List.flatMap_cons, List.flatMap_cons, List.append_assoc, List.append_assoc] at h
        have hread := congrArg readJSONChar h
        rw [readJSONChar_print, readJSONChar_print, Option.some.injEq, Prod.mk.injEq] at hread
        obtain ⟨hab, hru⟩ := ih b hread.2
        exact ⟨by rw [hread.1, hab], hru⟩
  have hquoted : s.toList.flatMap jsonChar ++ '"' :: r = t.toList.flatMap jsonChar ++ '"' :: u := by
    have htail := List.tail_eq_of_cons_eq h
    simpa [List.append_assoc] using htail
  obtain ⟨hst, hru⟩ := hbody s.toList t.toList hquoted
  exact ⟨String.toList_injective hst, hru⟩

/-! Numbers. -/

theorem itoa_number (n : ℤ) : itoa n ≠ [] ∧ ∀ c ∈ itoa n, numberChar c = true := by
  unfold itoa
  refine ⟨by simp [Nat.toDigits_ne_nil], ?_⟩
  intro c hc
  rcases List.mem_append.mp hc with hc | hc
  · split_ifs at hc
    · rw [List.mem_singleton] at hc
      rw [hc]
      decide
    · cases hc
  · have hdigit := Nat.isDigit_of_mem_toDigits (by decide) (by decide) hc
    simp [numberChar, hdigit]

theorem itoa_injective : Function.Injective itoa := by
  intro n m h
  have hdigits (k : ℕ) : '-' ∉ Nat.toDigits 10 k := by
    intro hc
    exact absurd (Nat.isDigit_of_mem_toDigits (by decide) (by decide) hc) (by decide)
  have hvalue (a b : ℕ) (hab : Nat.toDigits 10 a = Nat.toDigits 10 b) : a = b := by
    have hread := congrArg (fun l => Nat.ofDigitChars 10 l 0) hab
    simpa only [Nat.ofDigitChars_ten_toDigits] using hread
  unfold itoa at h
  split_ifs at h with hn hm hm
  · have := hvalue _ _ (List.append_cancel_left h)
    omega
  · refine absurd ?_ (hdigits m.natAbs)
    rw [← List.nil_append (Nat.toDigits 10 m.natAbs), ← h]
    exact List.mem_append_left _ (List.mem_singleton_self _)
  · refine absurd ?_ (hdigits n.natAbs)
    rw [← List.nil_append (Nat.toDigits 10 n.natAbs), h]
    exact List.mem_append_left _ (List.mem_singleton_self _)
  · have := hvalue _ _ (List.append_cancel_left h)
    omega

/-! Shapes. -/

def jsonStop (r : List Char) : Prop := ∀ c ∈ r.head?, numberChar c = false

def strings : Set Json := Set.range Json.str

def integers : Set Json := Set.range Json.int

def floats : Set Json := Set.range Json.float

def booleans : Set Json := Set.range Json.bool

def nullable (F : Set Json) : Set Json := Insert.insert .null F

def arrays (F : Set Json) : Set Json := {j | ∃ l, j = .arr l ∧ ∀ a ∈ l, a ∈ F}

def objects (G : String → Set Json) : Set Json := {j | ∃ l, j = .obj l ∧ ∀ e ∈ l, e.2 ∈ G e.1}

section Shapes
variable {floatText : Float64 → Option (List Char)} {F : Set Json} {G : String → Set Json}

def entryText (floatText : Float64 → Option (List Char)) (e : String × Json) : Option (List Char) :=
  (e.2.print floatText).map (fun t => jsonString e.1 ++ ':' :: t)

theorem printItems_eq (l : List Json) : Json.printItems floatText l = l.mapM (Json.print floatText) := by
  induction l with
  | nil => rfl
  | cons j l ih =>
    rw [Json.printItems, ih, List.mapM_cons]
    cases j.print floatText with
    | none => rfl
    | some t => cases l.mapM (Json.print floatText) <;> rfl

theorem printFields_eq (l : List (String × Json)) :
    Json.printFields floatText l = l.mapM (entryText floatText) := by
  induction l with
  | nil => rfl
  | cons e l ih =>
    obtain ⟨key, j⟩ := e
    rw [Json.printFields, ih, List.mapM_cons, entryText]
    cases j.print floatText with
    | none => rfl
    | some t => cases l.mapM (entryText floatText) <;> rfl

theorem print_head (hf : FloatText floatText) (j : Json) (t : List Char) (h : j.print floatText = some t) :
    ∃ c, t.head? = some c ∧ c ≠ ']' ∧ c ≠ Char.ofNat 125 ∧ (j ≠ .null → c ≠ 'n') := by
  have hnumber (t : List Char) (ht : t ≠ [] ∧ ∀ c ∈ t, numberChar c = true) :
      ∃ c, t.head? = some c ∧ c ≠ ']' ∧ c ≠ Char.ofNat 125 ∧ (j ≠ .null → c ≠ 'n') := by
    obtain ⟨hne, hall⟩ := ht
    cases t with
    | nil => exact absurd rfl hne
    | cons c t =>
      have hc := hall c List.mem_cons_self
      have hother (d : Char) (hd : numberChar d = false) : c ≠ d := by
        rintro rfl
        rw [hc] at hd
        cases hd
      exact ⟨c, rfl, hother _ (by decide), hother _ (by decide), fun _ => hother _ (by decide)⟩
  cases j with
  | null =>
    cases h
    exact ⟨'n', rfl, by decide, by decide, fun hn => absurd rfl hn⟩
  | bool b =>
    cases b <;> cases h
    · exact ⟨'f', rfl, by decide, by decide, fun _ => by decide⟩
    · exact ⟨'t', rfl, by decide, by decide, fun _ => by decide⟩
  | int n =>
    cases h
    exact hnumber _ (itoa_number n)
  | float x => exact hnumber t (hf.number x t h)
  | str s =>
    cases h
    exact ⟨'"', rfl, by decide, by decide, fun _ => by decide⟩
  | arr l =>
    obtain ⟨ts, -, rfl⟩ := Option.map_eq_some_iff.mp h
    exact ⟨'[', rfl, by decide, by decide, fun _ => by decide⟩
  | obj l =>
    obtain ⟨ts, -, rfl⟩ := Option.map_eq_some_iff.mp h
    exact ⟨Char.ofNat 123, rfl, by decide, by decide, fun _ => by decide⟩

theorem strings_code : PrefixCode jsonStop (Json.print floatText) strings := by
  rintro _ ⟨s, rfl⟩ _ ⟨u, rfl⟩ t v r w ht hv _ _ heq
  cases ht
  cases hv
  obtain ⟨hsu, hrw⟩ := jsonString_code s u r w heq
  exact ⟨by rw [hsu], hrw⟩

theorem integers_code : PrefixCode jsonStop (Json.print floatText) integers := by
  apply prefixCode_of_all numberChar
  · rintro _ ⟨n, rfl⟩ t ht
    cases ht
    exact (itoa_number n).2
  · rintro _ ⟨n, rfl⟩ _ ⟨m, rfl⟩ t ht hm
    cases ht
    have hnm : itoa m = itoa n := Option.some.inj hm
    rw [itoa_injective hnm]

theorem floats_code (hf : FloatText floatText) : PrefixCode jsonStop (Json.print floatText) floats := by
  apply prefixCode_of_all numberChar
  · rintro _ ⟨x, rfl⟩ t ht
    exact (hf.number x t ht).2
  · rintro _ ⟨x, rfl⟩ _ ⟨z, rfl⟩ t ht hz
    rw [hf.injective x z t ht hz]

theorem booleans_code : PrefixCode jsonStop (Json.print floatText) booleans := by
  rintro _ ⟨a, rfl⟩ _ ⟨b, rfl⟩ t u r s ht hu _ _ heq
  cases ht
  cases hu
  cases a <;> cases b <;> simp_all

theorem nullable_code (hf : FloatText floatText) (h : PrefixCode jsonStop (Json.print floatText) F) :
    PrefixCode jsonStop (Json.print floatText) (nullable F) := by
  apply h.insert .null 'n'
  · intro t ht
    cases ht
    rfl
  · intro j _ hne t ht
    obtain ⟨c, hc, -, -, hn⟩ := print_head hf j t ht
    exact ⟨c, hc, hn hne⟩

theorem jsonStop_cons (c : Char) (hc : numberChar c = false) (r : List Char) : jsonStop (c :: r) := by
  intro d hd
  cases hd
  exact hc

theorem arrays_code (hf : FloatText floatText) (h : PrefixCode jsonStop (Json.print floatText) F) :
    PrefixCode jsonStop (Json.print floatText) (arrays F) := by
  have hlist := h.list (jsonStop_cons ',' (by decide)) (jsonStop_cons ']' (by decide)) (by decide)
    (fun j _ t ht => by
      obtain ⟨c, hc, hclose, -⟩ := print_head hf j t ht
      exact ⟨c, hc, hclose⟩)
  rintro _ ⟨l, rfl, hl⟩ _ ⟨m, rfl, hm⟩ t u r s ht hu _ _ heq
  simp only [Json.print, printItems_eq] at ht hu
  obtain ⟨ts, hts, rfl⟩ := Option.map_eq_some_iff.mp ht
  obtain ⟨us, hus, rfl⟩ := Option.map_eq_some_iff.mp hu
  obtain ⟨hlm, hrs⟩ := hlist l hl m hm _ _ r s (congrArg (Option.map _) hts) (congrArg (Option.map _) hus) trivial trivial
    (List.tail_eq_of_cons_eq heq)
  exact ⟨by rw [hlm], hrs⟩

theorem entries_code (h : ∀ key, PrefixCode jsonStop (Json.print floatText) (G key)) :
    PrefixCode jsonStop (entryText floatText) {e | e.2 ∈ G e.1} := by
  rintro ⟨key, j⟩ hj ⟨key', j'⟩ hj' t u r s ht hu hr hs heq
  obtain ⟨v, hv, rfl⟩ := Option.map_eq_some_iff.mp ht
  obtain ⟨w, hw, rfl⟩ := Option.map_eq_some_iff.mp hu
  rw [List.append_assoc, List.append_assoc] at heq
  obtain ⟨hkey, hrest⟩ := jsonString_code _ _ _ _ heq
  have hkey' : key = key' := hkey
  subst hkey'
  obtain ⟨hjj, hrs⟩ := h key j hj j' hj' v w r s hv hw hr hs (List.tail_eq_of_cons_eq hrest)
  exact ⟨by rw [hjj], hrs⟩

theorem objects_code (h : ∀ key, PrefixCode jsonStop (Json.print floatText) (G key)) :
    PrefixCode jsonStop (Json.print floatText) (objects G) := by
  have hlist := (entries_code h).list (jsonStop_cons ',' (by decide))
    (jsonStop_cons (Char.ofNat 125) (by decide)) (by decide) (fun e _ t ht => by
      obtain ⟨v, -, rfl⟩ := Option.map_eq_some_iff.mp ht
      exact ⟨'"', rfl, by decide⟩)
  rintro _ ⟨l, rfl, hl⟩ _ ⟨m, rfl, hm⟩ t u r s ht hu _ _ heq
  simp only [Json.print, printFields_eq] at ht hu
  obtain ⟨ts, hts, rfl⟩ := Option.map_eq_some_iff.mp ht
  obtain ⟨us, hus, rfl⟩ := Option.map_eq_some_iff.mp hu
  obtain ⟨hlm, hrs⟩ := hlist l hl m hm _ _ r s (congrArg (Option.map _) hts) (congrArg (Option.map _) hus) trivial trivial
    (List.tail_eq_of_cons_eq heq)
  exact ⟨by rw [hlm], hrs⟩

end Shapes

end Faultline
