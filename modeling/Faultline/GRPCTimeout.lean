import Faultline.Text

/-! The `grpc-timeout` header: a number of at most eight digits and a unit. Encoding rounds up and
moves to a larger unit where the number gets too long; decoding stops at the largest duration. -/
namespace Faultline.GRPC

inductive TimeoutUnit where
  | nanosecond
  | microsecond
  | millisecond
  | second
  | minute
  | hour
  deriving DecidableEq

namespace TimeoutUnit

def nanoseconds : TimeoutUnit → ℕ
  | nanosecond => 1
  | microsecond => 1000
  | millisecond => 1000*1000
  | second => 1000*1000*1000
  | minute => 60*1000*1000*1000
  | hour => 60*60*1000*1000*1000

def size (u : TimeoutUnit) : Int64 := Int64.ofNat u.nanoseconds

def suffix : TimeoutUnit → UInt8
  | nanosecond => 110
  | microsecond => 117
  | millisecond => 109
  | second => 83
  | minute => 77
  | hour => 72

/-- The units in the order in which `TimeoutHeader` tries them. -/
def all : List TimeoutUnit := [nanosecond, microsecond, millisecond, second, minute, hour]

/-- The map of `Timeout`. -/
def ofSuffix (b : UInt8) : Option TimeoutUnit := all.find? (fun u => u.suffix = b)

end TimeoutUnit

open TimeoutUnit

def maxDuration : Int64 := Int64.ofNat (2^63-1)

def isDigitByte (b : UInt8) : Bool := 48 ≤ b && b ≤ 57

def decimal (digits : Bytes) : ℕ := digits.foldl (fun n b => 10*n + (b.toNat-48)) 0

/-- `strconv.ParseUint` in base 10 with 32 bits. -/
def parseUint32 (digits : Bytes) : Option ℕ :=
  if digits = [] ∨ ¬ digits.all isDigitByte ∨ 2^32 ≤ decimal digits then none else some (decimal digits)

/-- `Timeout`. -/
def timeout (value : Bytes) : Option Int64 :=
  if value.length < 2 ∨ 9 < value.length then none
  else if ¬ value.dropLast.all isDigitByte then none
  else
    match (value.getLast?).bind ofSuffix, parseUint32 value.dropLast with
    | some unit, some n =>
      if (maxDuration / unit.size).toInt.toNat < n then some maxDuration
      else some (Int64.ofNat n * unit.size)
    | _, _ => none

/-- `strconv.FormatInt` in base 10. -/
def formatInt (n : Int64) : Bytes := (itoa n.toInt).map (fun c => UInt8.ofNat c.toNat)

/-- The loop of `TimeoutHeader` over the units that are left. The end of the loop is a panic. -/
def headerLoop (duration : Int64) : List TimeoutUnit → Option Bytes
  | [] => none
  | unit :: units =>
    let n := if duration % unit.size ≠ 0 then duration / unit.size + 1 else duration / unit.size
    if n ≤ 99999999 then some (formatInt n ++ [unit.suffix]) else headerLoop duration units

def timeoutHeader (duration : Int64) : Option Bytes := headerLoop (max 1 duration) all

/-! Machine arithmetic on positive durations is exact. -/

theorem size_toInt (u : TimeoutUnit) : u.size.toInt = u.nanoseconds := by
  cases u <;> decide

theorem nanoseconds_pos (u : TimeoutUnit) : 0 < u.nanoseconds := by
  cases u <;> decide

theorem maxDuration_toInt : maxDuration.toInt = 2^63-1 := by
  decide

theorem toInt_le_max (d : Int64) : d.toInt ≤ 2^63-1 := by
  have h := d.toInt_lt
  omega

theorem bmod_of_fits (n : ℤ) (h0 : 0 ≤ n) (h : n ≤ 2^63-1) : n.bmod (2^64) = n := by
  apply Int.bmod_eq_of_le
  · omega
  · omega

theorem div_toInt (d s : Int64) (hd : 0 ≤ d.toInt) (hs : 0 < s.toInt) :
    (d / s).toInt = d.toInt / s.toInt := by
  have hq : 0 ≤ d.toInt / s.toInt := Int.ediv_nonneg hd hs.le
  have hle : d.toInt / s.toInt ≤ d.toInt := Int.ediv_le_self _ hd
  rw [Int64.toInt_div, Int.tdiv_eq_ediv_of_nonneg hd]
  exact bmod_of_fits _ hq (hle.trans (toInt_le_max d))

def effective (d : Int64) : ℕ := (max 1 d.toInt).toNat

theorem max_toInt (d : Int64) : (max 1 d).toInt = effective d := by
  change (if (1 : Int64) ≤ d then d else 1).toInt = effective d
  have hone : (1 : Int64).toInt = 1 := by decide
  rw [effective]
  split_ifs with h
  · rw [Int64.le_iff_toInt_le, hone] at h
    omega
  · rw [Int64.le_iff_toInt_le, hone] at h
    omega

theorem effective_bounds (d : Int64) : 1 ≤ effective d ∧ effective d ≤ 2^63-1 := by
  have h := toInt_le_max d
  unfold effective
  omega

theorem ceilDiv_eq (e : ℕ) (u : TimeoutUnit) : e ⌈/⌉ u.nanoseconds =
    if e % u.nanoseconds ≠ 0 then e / u.nanoseconds + 1 else e / u.nanoseconds := by
  rw [Nat.ceilDiv_eq_add_pred_div]
  by_cases hrest : e % u.nanoseconds ≠ 0
  · rw [if_pos hrest]
    cases u <;> simp only [nanoseconds] at hrest ⊢ <;> omega
  · rw [if_neg hrest]
    cases u <;> simp only [nanoseconds] at hrest ⊢ <;> omega

theorem count_toInt (d : Int64) (e : ℕ) (u : TimeoutUnit) (hd : d.toInt = e) :
    (if d % u.size ≠ 0 then d / u.size + 1 else d / u.size).toInt = (e ⌈/⌉ u.nanoseconds : ℕ) := by
  have hpos := nanoseconds_pos u
  have hsize := size_toInt u
  have hmax := toInt_le_max d
  have hdiv : (d / u.size).toInt = (e / u.nanoseconds : ℕ) := by
    rw [div_toInt d u.size (by omega) (by omega), hd, hsize]
    rfl
  have hmod : (d % u.size).toInt = (e % u.nanoseconds : ℕ) := by
    rw [Int64.toInt_mod, hd, hsize]
    rfl
  have hzero : d % u.size ≠ 0 ↔ e % u.nanoseconds ≠ 0 := by
    rw [ne_eq, ← Int64.toInt_inj, hmod, Int64.toInt_zero]
    omega
  rw [ceilDiv_eq]
  by_cases hrest : e % u.nanoseconds ≠ 0
  · -- a remainder leaves room for one more
    have hsplit := Nat.div_add_mod e u.nanoseconds
    have hroom : e / u.nanoseconds + 1 ≤ e := by
      have hle : e / u.nanoseconds ≤ u.nanoseconds*(e / u.nanoseconds) := Nat.le_mul_of_pos_left _ hpos
      omega
    have hfits : ((e / u.nanoseconds : ℕ) : ℤ) + 1 ≤ 2^63-1 := by
      have hcast : ((e / u.nanoseconds : ℕ) : ℤ) + 1 ≤ e := by exact_mod_cast hroom
      omega
    rw [if_pos (hzero.mpr hrest), if_pos hrest, Int64.toInt_add, hdiv, Int64.toInt_one,
      bmod_of_fits _ (by positivity) hfits]
    rfl
  · rw [if_neg (fun h => hrest (hzero.mp h)), if_neg hrest]
    exact hdiv

/-! Which unit is chosen. -/

def fits (e : ℕ) (u : TimeoutUnit) : Bool := e ⌈/⌉ u.nanoseconds ≤ 99999999

theorem all_sorted : all.Pairwise (fun u v => u.nanoseconds < v.nanoseconds) := by
  decide

theorem mem_all (u : TimeoutUnit) : u ∈ all := by
  cases u <;> decide

theorem all_split (u : TimeoutUnit) (before after : List TimeoutUnit) (h : all = before ++ u :: after) :
    (∀ v ∈ before, v.nanoseconds < u.nanoseconds) ∧ ∀ v ∈ after, u.nanoseconds < v.nanoseconds := by
  have hsorted := all_sorted
  rw [h, List.pairwise_append, List.pairwise_cons] at hsorted
  exact ⟨fun v hv => hsorted.2.2 v hv u List.mem_cons_self, hsorted.2.1.1⟩

theorem chosen_iff (e : ℕ) (u : TimeoutUnit) : all.find? (fits e) = some u ↔
    fits e u = true ∧ ∀ v, fits e v = true → u.nanoseconds ≤ v.nanoseconds := by
  rw [List.find?_eq_some_iff_append]
  refine and_congr_right (fun _ => ⟨?_, ?_⟩)
  · rintro ⟨before, after, hsplit, hbefore⟩ v hv
    have hmem := mem_all v
    rw [hsplit, List.mem_append, List.mem_cons] at hmem
    rcases hmem with hin | rfl | hin
    · exact absurd hv (by simpa using hbefore v hin)
    · exact le_rfl
    · exact ((all_split u before after hsplit).2 v hin).le
  · intro h
    obtain ⟨before, after, hsplit⟩ := List.append_of_mem (mem_all u)
    refine ⟨before, after, hsplit, ?_⟩
    intro v hin
    have hlt := (all_split u before after hsplit).1 v hin
    by_contra hv
    have hle := h v (by simpa using hv)
    omega

theorem exists_chosen (e : ℕ) (h : e ≤ 2^63-1) : ∃ u, all.find? (fits e) = some u := by
  rw [← Option.isSome_iff_exists, List.find?_isSome]
  refine ⟨.hour, mem_all _, ?_⟩
  rw [fits, decide_eq_true_eq, Nat.ceilDiv_eq_add_pred_div]
  simp only [nanoseconds]
  omega

def digits (n : ℕ) : Bytes := (Nat.toDigits 10 n).map (fun c => UInt8.ofNat c.toNat)

theorem formatInt_eq (k : Int64) (n : ℕ) (h : k.toInt = n) : formatInt k = digits n := by
  unfold formatInt digits itoa
  rw [h, if_neg (by omega), List.nil_append, Int.natAbs_natCast]

theorem le_limit_iff (k : Int64) (n : ℕ) (h : k.toInt = n) : k ≤ 99999999 ↔ n ≤ 99999999 := by
  have hlimit : (99999999 : Int64).toInt = 99999999 := by decide
  rw [Int64.le_iff_toInt_le, h, hlimit]
  omega

theorem headerLoop_eq (d : Int64) (e : ℕ) (hd : d.toInt = e) (units : List TimeoutUnit) :
    headerLoop d units = (units.find? (fits e)).map (fun u => digits (e ⌈/⌉ u.nanoseconds) ++ [u.suffix]) := by
  induction units with
  | nil => rfl
  | cons u units ih =>
    have hcount := count_toInt d e u hd
    have hlimit := le_limit_iff _ _ hcount
    rw [headerLoop, List.find?_cons]
    by_cases hfits : e ⌈/⌉ u.nanoseconds ≤ 99999999
    · rw [if_pos (hlimit.mpr hfits), formatInt_eq _ _ hcount, fits, decide_eq_true hfits]
      rfl
    · rw [if_neg (fun h => hfits (hlimit.mp h)), ih, fits, decide_eq_false hfits]

theorem timeoutHeader_eq (d : Int64) : timeoutHeader d =
    (all.find? (fits (effective d))).map
      (fun u => digits (effective d ⌈/⌉ u.nanoseconds) ++ [u.suffix]) :=
  headerLoop_eq _ _ (max_toInt d) all

/-! The digits. -/

theorem isDigitByte_iff (b : UInt8) : isDigitByte b = true ↔ 48 ≤ b.toNat ∧ b.toNat ≤ 57 := by
  rw [isDigitByte, Bool.and_eq_true, decide_eq_true_eq, decide_eq_true_eq, UInt8.le_iff_toNat_le,
    UInt8.le_iff_toNat_le]
  rfl

theorem digit_byte (c : Char) (h : c.isDigit = true) : (UInt8.ofNat c.toNat).toNat = c.toNat ∧
    48 ≤ c.toNat ∧ c.toNat ≤ 57 := by
  rw [Char.isDigit_iff_toNat] at h
  have h0 : '0'.toNat = 48 := rfl
  have h9 : '9'.toNat = 57 := rfl
  rw [UInt8.toNat_ofNat']
  omega

theorem digits_all (n : ℕ) : (digits n).all isDigitByte = true := by
  rw [List.all_eq_true]
  intro b hb
  obtain ⟨c, hc, rfl⟩ := List.mem_map.mp hb
  have hdigit := digit_byte c (Nat.isDigit_of_mem_toDigits (by decide) (by decide) hc)
  rw [isDigitByte_iff, hdigit.1]
  exact hdigit.2

theorem length_digits (n : ℕ) (h : n ≤ 99999999) : 1 ≤ (digits n).length ∧ (digits n).length ≤ 8 := by
  rw [digits, List.length_map]
  exact ⟨List.length_pos_iff.mpr Nat.toDigits_ne_nil, Nat.toDigits_length 10 n 8 (by decide) (by omega)⟩

theorem decimal_map (s : List Char) (h : ∀ c ∈ s, c.isDigit = true) (n : ℕ) :
    (s.map (fun c => UInt8.ofNat c.toNat)).foldl (fun n b => 10*n + (b.toNat-48)) n = Nat.ofDigitChars 10 s n := by
  induction s generalizing n with
  | nil => rfl
  | cons c s ih =>
    obtain ⟨hc, hs⟩ := List.forall_mem_cons.mp h
    rw [List.map_cons, List.foldl_cons, ih hs, (digit_byte c hc).1]
    rfl

theorem decimal_digits (n : ℕ) : decimal (digits n) = n := by
  have hdigit : ∀ c ∈ Nat.toDigits 10 n, c.isDigit = true :=
    fun c hc => Nat.isDigit_of_mem_toDigits (by decide) (by decide) hc
  calc decimal (digits n) = Nat.ofDigitChars 10 (Nat.toDigits 10 n) 0 := decimal_map _ hdigit 0
    _ = n := Nat.ofDigitChars_ten_toDigits

theorem decimal_lt (s : Bytes) (h : s.all isDigitByte = true) : decimal s < 10^s.length := by
  induction s using List.reverseRecOn with
  | nil => simp [decimal]
  | append_singleton s b ih =>
    rw [List.all_append, Bool.and_eq_true] at h
    have hs := ih h.1
    have hb : 48 ≤ b.toNat ∧ b.toNat ≤ 57 := (isDigitByte_iff b).mp (by simpa using h.2)
    have hstep : decimal (s ++ [b]) = 10*decimal s + (b.toNat-48) := by
      simp [decimal]
    rw [hstep, List.length_append, List.length_singleton, pow_succ]
    omega

/-! Decoding. -/

structure TimeoutText (value number : Bytes) (unit : TimeoutUnit) : Prop where
  text : value = number ++ [unit.suffix]
  short : 1 ≤ number.length ∧ number.length ≤ 8
  digits : number.all isDigitByte = true

theorem ofSuffix_iff (b : UInt8) (u : TimeoutUnit) : ofSuffix b = some u ↔ u.suffix = b := by
  constructor
  · intro h
    simpa using List.find?_some h
  · rintro rfl
    cases u <;> rfl

/-- The duration that `Timeout` returns for a number of units. -/
def product (n : ℕ) (u : TimeoutUnit) : Int64 :=
  if (maxDuration / u.size).toInt.toNat < n then maxDuration else Int64.ofNat n * u.size

theorem product_toInt (n : ℕ) (u : TimeoutUnit) (hn : n < 10^8) :
    (product n u).toInt = min (n*u.nanoseconds : ℤ) (2^63-1) := by
  have hpos := nanoseconds_pos u
  have hquotient : (maxDuration / u.size).toInt.toNat = (2^63-1)/u.nanoseconds := by
    have hsize : 0 < u.size.toInt := by
      rw [size_toInt]
      omega
    rw [div_toInt _ _ (by decide) hsize, maxDuration_toInt, size_toInt]
    rfl
  have hover : (2^63-1)/u.nanoseconds < n ↔ 2^63-1 < n*u.nanoseconds := Nat.div_lt_iff_lt_mul hpos
  unfold product
  rw [hquotient]
  by_cases hn' : 2^63-1 < n*u.nanoseconds
  · rw [if_pos (hover.mpr hn'), maxDuration_toInt, min_eq_right]
    have hcast : ((2^63-1 : ℕ) : ℤ) < (n*u.nanoseconds : ℕ) := Int.ofNat_lt.mpr hn'
    push_cast at hcast
    omega
  · have hcast : ((n*u.nanoseconds : ℕ) : ℤ) ≤ (2^63-1 : ℕ) := Int.ofNat_le.mpr (not_lt.mp hn')
    push_cast at hcast
    have hn64 : (Int64.ofNat n).toInt = n := by
      apply Int64.toInt_ofNat_of_lt
      omega
    rw [if_neg (fun h => hn' (hover.mp h)), Int64.toInt_mul, hn64, size_toInt,
      bmod_of_fits _ (by positivity) (by omega), min_eq_left (by omega)]

theorem timeout_concat (number : Bytes) (b : UInt8) : timeout (number ++ [b]) =
    if (1 ≤ number.length ∧ number.length ≤ 8) ∧ number.all isDigitByte = true then
      (ofSuffix b).map (product (decimal number)) else none := by
  unfold timeout
  rw [List.length_append, List.length_singleton, List.dropLast_concat, List.getLast?_concat, Option.bind_some]
  by_cases hshort : 1 ≤ number.length ∧ number.length ≤ 8
  · rw [if_neg (by omega)]
    by_cases hall : number.all isDigitByte = true
    · have hne : number ≠ [] := List.length_pos_iff.mp hshort.1
      have hlt : decimal number < 10^8 :=
        (decimal_lt number hall).trans_le (Nat.pow_le_pow_right (by decide) hshort.2)
      have hparse : parseUint32 number = some (decimal number) := by
        unfold parseUint32
        rw [if_neg]
        simp only [hne, hall, not_true_eq_false, false_or, not_le]
        omega
      rw [if_neg (not_not_intro hall), if_pos ⟨hshort, hall⟩, hparse]
      cases ofSuffix b with
      | none => rfl
      | some unit =>
        simp only [Option.map_some, product]
        split_ifs <;> rfl
    · rw [if_pos hall, if_neg (fun h => hall h.2)]
  · rw [if_pos (by omega), if_neg (fun h => hshort h.1)]

theorem timeout_iff (value : Bytes) (v : Int64) : timeout value = some v ↔
    ∃ number unit, TimeoutText value number unit ∧
      v.toInt = min (decimal number*unit.nanoseconds : ℤ) (2^63-1) := by
  have hproduct (number : Bytes) (unit : TimeoutUnit)
      (hshort : 1 ≤ number.length ∧ number.length ≤ 8) (hall : number.all isDigitByte = true) :
      (product (decimal number) unit).toInt = min (decimal number*unit.nanoseconds : ℤ) (2^63-1) := by
    apply product_toInt
    exact (decimal_lt number hall).trans_le (Nat.pow_le_pow_right (by decide) hshort.2)
  constructor
  · intro h
    obtain rfl | ⟨number, b, rfl⟩ := value.eq_nil_or_concat
    · cases h
    · rw [List.concat_eq_append] at h ⊢
      rw [timeout_concat] at h
      split_ifs at h with haccept
      obtain ⟨unit, hunit, rfl⟩ := Option.map_eq_some_iff.mp h
      have hsuffix := (ofSuffix_iff b unit).mp hunit
      exact ⟨number, unit, ⟨by rw [hsuffix], haccept.1, haccept.2⟩, hproduct number unit haccept.1 haccept.2⟩
  · rintro ⟨number, unit, ⟨rfl, hshort, hall⟩, hv⟩
    rw [timeout_concat, if_pos ⟨hshort, hall⟩, (ofSuffix_iff unit.suffix unit).mpr rfl, Option.map_some]
    apply congrArg some
    rw [← Int64.toInt_inj, hproduct number unit hshort hall, hv]

/-! The round trip. -/

theorem le_mul_ceilDiv (e : ℕ) (u : TimeoutUnit) : e ≤ u.nanoseconds*(e ⌈/⌉ u.nanoseconds) :=
  (ceilDiv_le_iff_le_mul (nanoseconds_pos u)).mp le_rfl

theorem mul_ceilDiv_lt (e : ℕ) (u : TimeoutUnit) :
    u.nanoseconds*(e ⌈/⌉ u.nanoseconds) < e + u.nanoseconds := by
  have hpos := nanoseconds_pos u
  have hle := Nat.mul_div_le (e + u.nanoseconds - 1) u.nanoseconds
  rw [Nat.ceilDiv_eq_add_pred_div]
  omega

/-- Between a duration and its number of units, rounded up, the unit and the number stay the same. -/
theorem chosen_stable (e e' : ℕ) (u : TimeoutUnit) (hu : all.find? (fits e) = some u) (hle : e ≤ e')
    (hle' : e' ≤ u.nanoseconds*(e ⌈/⌉ u.nanoseconds)) :
    all.find? (fits e') = some u ∧ e' ⌈/⌉ u.nanoseconds = e ⌈/⌉ u.nanoseconds := by
  have hpos := nanoseconds_pos u
  have hmono (v : TimeoutUnit) : e ⌈/⌉ v.nanoseconds ≤ e' ⌈/⌉ v.nanoseconds := by
    apply (ceilDiv_le_iff_le_mul (nanoseconds_pos v)).mpr
    exact hle.trans (le_mul_ceilDiv e' v)
  have hsame : e' ⌈/⌉ u.nanoseconds = e ⌈/⌉ u.nanoseconds := by
    apply le_antisymm
    · exact (ceilDiv_le_iff_le_mul hpos).mpr hle'
    · exact hmono u
  rw [chosen_iff] at hu ⊢
  obtain ⟨hfits, hleast⟩ := hu
  refine ⟨⟨?_, ?_⟩, hsame⟩
  · rwa [fits, hsame]
  · intro v hv
    apply hleast v
    rw [fits, decide_eq_true_eq] at hv ⊢
    exact (hmono v).trans hv

structure Encoded (d : Int64) (value number : Bytes) (unit : TimeoutUnit) (v : Int64) : Prop where
  header : timeoutHeader d = some value
  text : TimeoutText value number unit
  rounded : decimal number = effective d ⌈/⌉ unit.nanoseconds
  fits : effective d ⌈/⌉ unit.nanoseconds ≤ 99999999
  smallest : ∀ u : TimeoutUnit, effective d ⌈/⌉ u.nanoseconds ≤ 99999999 → unit.nanoseconds ≤ u.nanoseconds
  decoded : timeout value = some v
  kept : effective d ≤ v.toInt
  close : v.toInt < effective d + unit.nanoseconds
  again : timeoutHeader v = some value

theorem encoded (d : Int64) : ∃ value number unit v, Encoded d value number unit v := by
  obtain ⟨hone, hmax⟩ := effective_bounds d
  obtain ⟨unit, hunit⟩ := exists_chosen (effective d) hmax
  obtain ⟨hfits, hsmallest⟩ := (chosen_iff _ _).mp hunit
  have hn : effective d ⌈/⌉ unit.nanoseconds ≤ 99999999 := by
    rwa [fits, decide_eq_true_eq] at hfits
  have hv := product_toInt (effective d ⌈/⌉ unit.nanoseconds) unit (by omega)
  have hlow := le_mul_ceilDiv (effective d) unit
  have hhigh := mul_ceilDiv_lt (effective d) unit
  generalize hcount : effective d ⌈/⌉ unit.nanoseconds = n at *
  generalize hproduct : product n unit = v at *
  have hcast : (n*unit.nanoseconds : ℤ) = (unit.nanoseconds*n : ℕ) := by
    push_cast
    ring
  rw [hcast] at hv
  have hkept : effective d ≤ v.toInt := by omega
  have hheader : timeoutHeader d = some (digits n ++ [unit.suffix]) := by
    rw [timeoutHeader_eq, hunit, Option.map_some, hcount]
  have htext : TimeoutText (digits n ++ [unit.suffix]) (digits n) unit :=
    ⟨rfl, length_digits n hn, digits_all n⟩
  refine ⟨_, digits n, unit, v, hheader, htext, ?_, ?_, ?_, ?_, hkept, by omega, ?_⟩
  · rw [decimal_digits, hcount]
  · rwa [hcount]
  · intro u hu
    apply hsmallest u
    rwa [fits, decide_eq_true_eq]
  · rw [timeout_iff]
    refine ⟨digits n, unit, htext, ?_⟩
    rw [decimal_digits, hcast]
    exact hv
  · -- the decoded duration lies between the given one and its number of units
    have heffective : effective v = v.toInt.toNat := by
      rw [effective]
      omega
    have hstable := chosen_stable (effective d) (effective v) unit hunit (by omega)
      (by rw [hcount, heffective]; omega)
    rw [timeoutHeader_eq, hstable.1, Option.map_some, hstable.2, hcount]

/-- The header of every duration has a number of one to eight digits, in the smallest unit that
allows it; it is decoded to a duration that is not shorter and less than a unit longer, with the
same header. Decoding accepts such texts only, and gives the product or the largest duration. -/
theorem timeout_codec :
    (∀ d, ∃ value number unit v, Encoded d value number unit v) ∧
      ∀ value v, timeout value = some v ↔ ∃ number unit, TimeoutText value number unit ∧
        v.toInt = min (decimal number*unit.nanoseconds : ℤ) (2^63-1) :=
  ⟨encoded, timeout_iff⟩

example : (timeoutHeader maxDuration).map timeout = some (some maxDuration) := by
  decide +kernel

end Faultline.GRPC
