import Faultline.ByteOrder
import Faultline.Segments

/-! The startup packet of PostgreSQL. The proxy looks at it as one list of fields between zeros; a
server reads names and values one after the other. -/
namespace Faultline.PostgreSQL

def replication : Bytes := bytesOf "replication"

def namesValid : List Bytes → Bool
  | name :: _ :: rest => !(name.length = 0 || name = replication) && namesValid rest
  | _ => true

def validStartup (b : Bytes) : Bool :=
  if b.length < 5 || beNat (b.take 4) ≠ 196608 || b.getLast? ≠ some 0 then false
  else
    let fields := ((b.take (b.length - 1)).drop 4).splitOn 0
    if fields.length % 2 ≠ 1 || (fields.getLast?.getD []).length ≠ 0 then false
    else namesValid fields

/-! The grammar. -/

structure Parameter where
  name : Bytes
  value : Bytes
  name_ne : name ≠ []
  name_nul : 0 ∉ name
  name_allowed : name ≠ replication
  value_nul : 0 ∉ value

def Parameter.bytes (p : Parameter) : Bytes := p.name ++ 0 :: (p.value ++ [0])

def startupBytes (params : List Parameter) : Bytes :=
  putBE 4 196608 ++ (params.flatMap Parameter.bytes ++ [0])

def Parameter.fields (p : Parameter) : List Bytes := [p.name, p.value]

theorem splitOn_cons_zero (a b : Bytes) (ha : 0 ∉ a) : (a ++ 0 :: b).splitOn 0 = a :: b.splitOn 0 := by
  rw [splitOn_cut, cut_append 0 a b ha]
  rfl

theorem splitOn_parameters (params : List Parameter) :
    (params.flatMap Parameter.bytes).splitOn 0 = params.flatMap Parameter.fields ++ [[]] := by
  induction params with
  | nil => rfl
  | cons p params ih =>
    rw [List.flatMap_cons, List.flatMap_cons, Parameter.bytes, List.append_assoc, List.cons_append,
      List.append_assoc, splitOn_cons_zero _ _ p.name_nul, List.singleton_append,
      splitOn_cons_zero _ _ p.value_nul, ih]
    rfl

theorem namesValid_fields (params : List Parameter) :
    namesValid (params.flatMap Parameter.fields ++ [[]]) = true := by
  induction params with
  | nil => rfl
  | cons p params ih =>
    rw [List.flatMap_cons, Parameter.fields, List.append_assoc, List.cons_append, List.cons_append,
      namesValid, List.nil_append, ih]
    simp [p.name_ne, p.name_allowed]

theorem length_fields (params : List Parameter) :
    (params.flatMap Parameter.fields).length = 2 * params.length := by
  induction params with
  | nil => rfl
  | cons p params ih =>
    rw [List.flatMap_cons, List.length_append, ih, List.length_cons, Parameter.fields]
    simp only [List.length_cons, List.length_nil]
    omega

/-- Fields that pass the checks are those of a list of parameters. The induction takes two fields
at a time, as the loop does. -/
theorem parameters_of_fields (fields : List Bytes) (hodd : fields.length % 2 = 1)
    (hlast : fields.getLast?.getD [] = []) (hnames : namesValid fields = true)
    (hnul : ∀ f ∈ fields, 0 ∉ f) : ∃ params : List Parameter, fields = params.flatMap Parameter.fields ++ [[]] := by
  induction hn : fields.length using Nat.strong_induction_on generalizing fields with
  | _ n ih =>
    subst hn
    cases fields with
    | nil => exact absurd hodd (by decide)
    | cons name fields =>
      cases fields with
      | nil =>
        refine ⟨[], ?_⟩
        have hempty : name = [] := hlast
        rw [hempty]
        rfl
      | cons value rest =>
        rw [namesValid, Bool.and_eq_true, Bool.not_eq_true', Bool.or_eq_false_iff, decide_eq_false_iff_not,
          decide_eq_false_iff_not, List.length_eq_zero_iff] at hnames
        obtain ⟨⟨hne, hallowed⟩, hrest⟩ := hnames
        have hodd' : rest.length % 2 = 1 := by
          simp only [List.length_cons] at hodd
          omega
        have hlast' : rest.getLast?.getD [] = [] := by
          have hnil : rest ≠ [] := by
            rintro rfl
            cases hodd'
          obtain ⟨r, rs, rfl⟩ := List.exists_cons_of_ne_nil hnil
          rw [List.getLast?_cons_cons, List.getLast?_cons_cons] at hlast
          exact hlast
        obtain ⟨params, hparams⟩ := ih rest.length (by simp only [List.length_cons]; omega) rest hodd' hlast'
          hrest (fun f hf => hnul f (List.mem_cons_of_mem _ (List.mem_cons_of_mem _ hf))) rfl
        have hname : 0 ∉ name := hnul name List.mem_cons_self
        have hvalue : 0 ∉ value := hnul value (List.mem_cons_of_mem _ List.mem_cons_self)
        refine ⟨⟨name, value, hne, hname, hallowed, hvalue⟩ :: params, ?_⟩
        rw [List.flatMap_cons, List.append_assoc, ← hparams]
        rfl

theorem intercalate_fields (params : List Parameter) :
    [0].intercalate (params.flatMap Parameter.fields ++ [[]]) = params.flatMap Parameter.bytes := by
  rw [← splitOn_parameters, List.intercalate_splitOn]

theorem startup_middle (b : Bytes) (hlen : 5 ≤ b.length) (hlast : b.getLast? = some 0) :
    b = b.take 4 ++ ((b.take (b.length - 1)).drop 4 ++ [0]) := by
  obtain ⟨a, rfl⟩ := List.getLast?_eq_some_iff.mp hlast
  rw [List.length_append, List.length_singleton] at hlen
  rw [List.length_append, List.length_singleton, Nat.add_sub_cancel, List.take_left,
    List.take_append_of_le_length (by omega), ← List.append_assoc, List.take_append_drop]

theorem validStartup_iff (b : Bytes) : validStartup b = true ↔ ∃ params, b = startupBytes params := by
  constructor
  · intro h
    unfold validStartup at h
    simp only [Bool.or_eq_true, decide_eq_true_eq] at h
    split_ifs at h with h1 h2
    rw [not_or, not_or, not_not, not_not] at h1
    rw [not_or, not_not, not_not, List.length_eq_zero_iff] at h2
    obtain ⟨⟨hlen, hversion⟩, hlast⟩ := h1
    obtain ⟨params, hparams⟩ := parameters_of_fields _ h2.1 h2.2 h (splitOn_notMem 0 _)
    refine ⟨params, ?_⟩
    have hmiddle : (b.take (b.length - 1)).drop 4 = params.flatMap Parameter.bytes := by
      rw [← intercalate_fields, ← hparams, List.intercalate_splitOn]
    have hhead : b.take 4 = putBE 4 196608 := by
      have hput := putBE_beNat (b.take 4)
      rw [List.length_take_of_le (by omega), hversion] at hput
      exact hput.symm
    rw [startupBytes, ← hmiddle, ← hhead]
    exact startup_middle b (by omega) hlast
  · rintro ⟨params, rfl⟩
    have hlen : (startupBytes params).length = (params.flatMap Parameter.bytes).length + 5 := by
      rw [startupBytes, List.length_append, List.length_append, length_putBE, List.length_singleton]
      omega
    have htake : (startupBytes params).take 4 = putBE 4 196608 := by
      rw [startupBytes, List.take_left' (length_putBE 4 196608)]
    have hlast : (startupBytes params).getLast? = some 0 := by
      rw [startupBytes, ← List.append_assoc, List.getLast?_concat]
    have hmiddle : ((startupBytes params).take ((startupBytes params).length - 1)).drop 4 =
        params.flatMap Parameter.bytes := by
      have hparts := startup_middle (startupBytes params) (by omega) hlast
      rw [htake] at hparts
      exact (List.append_cancel_right (List.append_cancel_left hparts)).symm
    have hversion : beNat (putBE 4 196608) = 196608 := beNat_putBE 4 196608 (by decide)
    have hodd : (params.flatMap Parameter.fields ++ [[]]).length % 2 = 1 := by
      rw [List.length_append, length_fields, List.length_singleton]
      omega
    have hshort : ¬(startupBytes params).length < 5 := by omega
    unfold validStartup
    simp only [hmiddle, splitOn_parameters, htake, hversion, hlast, hshort, hodd, List.getLast?_concat,
      Option.getD_some, List.length_nil, ne_eq, not_true_eq_false, decide_false, Bool.or_self,
      Bool.false_eq_true, if_false]
    exact namesValid_fields params

/-! What a server reads. -/

def readCString (b : Bytes) : Option (Bytes × Bytes) := (cut 0 b).2.map (fun rest => ((cut 0 b).1, rest))

/-- Names and values are read until a name is empty; also returns the bytes behind that. -/
def readParameters : ℕ → Bytes → Option (List (Bytes × Bytes) × Bytes)
  | 0, _ => none
  | n+1, b => do
    let (name, b) ← readCString b
    if name = [] then return ([], b)
    else
      let (value, b) ← readCString b
      let (params, rest) ← readParameters n b
      return ((name, value) :: params, rest)

theorem readCString_append (a b : Bytes) (ha : 0 ∉ a) : readCString (a ++ 0 :: b) = some (a, b) := by
  rw [readCString, cut_append 0 a b ha]
  rfl

def Parameter.pair (p : Parameter) : Bytes × Bytes := (p.name, p.value)

theorem readParameters_bytes (params : List Parameter) (n : ℕ) (hn : params.length < n) (rest : Bytes) :
    readParameters n (params.flatMap Parameter.bytes ++ 0 :: rest) = some (params.map Parameter.pair, rest) := by
  induction params generalizing n with
  | nil =>
    obtain ⟨n, rfl⟩ := Nat.exists_eq_succ_of_ne_zero (Nat.ne_of_gt hn)
    rfl
  | cons p params ih =>
    obtain ⟨n, rfl⟩ := Nat.exists_eq_succ_of_ne_zero (Nat.ne_of_gt (Nat.zero_lt_of_lt hn))
    have hrest := ih n (Nat.lt_of_succ_lt_succ hn)
    rw [List.flatMap_cons, Parameter.bytes, List.append_assoc, List.append_assoc, List.cons_append,
      List.append_assoc, List.singleton_append, readParameters, readCString_append _ _ p.name_nul]
    simp only [Option.bind_eq_bind, Option.bind_some, if_neg p.name_ne, readCString_append _ _ p.value_nul,
      hrest]
    rfl

theorem length_le_bytes (params : List Parameter) :
    params.length ≤ (params.flatMap Parameter.bytes).length := by
  induction params with
  | nil => exact Nat.zero_le _
  | cons p params ih =>
    have hone : 1 ≤ p.bytes.length := by
      rw [Parameter.bytes, List.length_append, List.length_cons]
      omega
    rw [List.flatMap_cons, List.length_append, List.length_cons]
    omega

theorem Parameter.pair_injective : Function.Injective Parameter.pair := by
  intro p q h
  cases p
  cases q
  cases h
  rfl

theorem startup_read (params : List Parameter) :
    readParameters (startupBytes params).length ((startupBytes params).drop 4) =
      some (params.map Parameter.pair, []) := by
  have hlen := length_le_bytes params
  rw [startupBytes, List.drop_left' (length_putBE 4 196608)]
  apply readParameters_bytes
  rw [List.length_append, List.length_append, List.length_singleton]
  omega

theorem startupBytes_injective : Function.Injective startupBytes := by
  intro params params' h
  have hread := startup_read params
  rw [h, startup_read params', Option.some.injEq, Prod.mk.injEq] at hread
  exact (List.map_injective_iff.mpr Parameter.pair_injective hread.1).symm

/-- The startup packets that pass are those of the grammar, each of one list of parameters. A server
reads that list from the packet, with no replication among the names and nothing left over. -/
theorem startup_grammar (b : Bytes) :
    (validStartup b = true ↔ ∃ params, b = startupBytes params) ∧
    (validStartup b = true → ∃! params, b = startupBytes params) ∧
    (validStartup b = true → ∃ params, readParameters b.length (b.drop 4) = some (params, []) ∧
      ∀ p ∈ params, p.1 ≠ replication) := by
  refine ⟨validStartup_iff b, ?_, ?_⟩
  · intro h
    obtain ⟨params, hparams⟩ := (validStartup_iff b).mp h
    refine ⟨params, hparams, ?_⟩
    intro params' hparams'
    exact startupBytes_injective (hparams'.symm.trans hparams)
  · intro h
    obtain ⟨params, rfl⟩ := (validStartup_iff b).mp h
    refine ⟨_, startup_read params, ?_⟩
    intro p hp
    obtain ⟨q, -, rfl⟩ := List.mem_map.mp hp
    exact q.name_allowed

end Faultline.PostgreSQL
