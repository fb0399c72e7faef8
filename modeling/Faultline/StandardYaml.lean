import Faultline.ByteOrder
import Faultline.ConfigYaml

/-! A YAML library for concrete configurations. The text of one document is fixed; the nodes of
any other are printed in a form of their own, each part with its length in front. -/
namespace Faultline

def yamlLength : ℕ → Bytes
  | 0 => [0]
  | n+1 => 1 :: yamlLength n

def readLength : Bytes → Option (ℕ × Bytes)
  | [] => none
  | b :: rest => if b = 0 then some (0, rest) else (readLength rest).map (fun r => (r.1 + 1, r.2))

theorem readLength_yamlLength (n : ℕ) (rest : Bytes) :
    readLength (yamlLength n ++ rest) = some (n, rest) := by
  induction n with
  | zero => rfl
  | succ n ih => simp [yamlLength, readLength, ih]

def yamlChars (s : List Char) : Bytes := s.flatMap (fun c => putBE 4 c.toNat)

def readChars : ℕ → Bytes → List Char × Bytes
  | 0, b => ([], b)
  | k+1, b => (Char.ofNat (beNat (b.take 4)) :: (readChars k (b.drop 4)).1, (readChars k (b.drop 4)).2)

theorem readChars_yamlChars (s : List Char) (rest : Bytes) :
    readChars s.length (yamlChars s ++ rest) = (s, rest) := by
  induction s with
  | nil => rfl
  | cons c s ih =>
    have hsplit : yamlChars (c :: s) ++ rest = putBE 4 c.toNat ++ (yamlChars s ++ rest) := by
      simp [yamlChars]
    have htake : (yamlChars (c :: s) ++ rest).take 4 = putBE 4 c.toNat := by
      rw [hsplit]
      exact List.take_left' (length_putBE _ _)
    have hdrop : (yamlChars (c :: s) ++ rest).drop 4 = yamlChars s ++ rest := by
      rw [hsplit]
      exact List.drop_left' (length_putBE _ _)
    have hchar : c.toNat < 256^4 := c.val.toNat_lt
    simp only [List.length_cons, readChars, htake, hdrop, ih, beNat_putBE 4 _ hchar, Char.ofNat_toNat]

def yamlString (s : String) : Bytes := yamlLength s.toList.length ++ yamlChars s.toList

def readString (b : Bytes) : Option (String × Bytes) :=
  (readLength b).map (fun r => (String.ofList (readChars r.1 r.2).1, (readChars r.1 r.2).2))

theorem readString_yamlString (s : String) (rest : Bytes) :
    readString (yamlString s ++ rest) = some (s, rest) := by
  rw [readString, yamlString, List.append_assoc, readLength_yamlLength, Option.map_some,
    readChars_yamlChars, String.ofList_toList]

mutual

def yamlNode : Node → Bytes
  | .scalar tag value => 0 :: (yamlString tag ++ yamlString value)
  | .mapping tag content => 1 :: (yamlString tag ++ (yamlLength content.length ++ yamlNodes content))
  | .sequence tag content => 2 :: (yamlString tag ++ (yamlLength content.length ++ yamlNodes content))
  | .alias => [3]

def yamlNodes : List Node → Bytes
  | [] => []
  | n :: rest => yamlNode n ++ yamlNodes rest

end

def readMany (read : Bytes → Option (Node × Bytes)) : ℕ → Bytes → Option (List Node × Bytes)
  | 0, b => some ([], b)
  | k+1, b =>
    match read b with
    | none => none
    | some (n, rest) => (readMany read k rest).map (fun r => (n :: r.1, r.2))

/-- The fuel bounds the depth of the node. -/
def readNode : ℕ → Bytes → Option (Node × Bytes)
  | 0, _ => none
  | _+1, [] => none
  | fuel+1, kind :: b =>
    if kind = 3 then some (.alias, b)
    else
      match readString b with
      | none => none
      | some (tag, b) =>
        if kind = 0 then (readString b).map (fun r => (.scalar tag r.1, r.2))
        else
          match readLength b with
          | none => none
          | some (n, b) => (readMany (readNode fuel) n b).map (fun r =>
              (if kind = 1 then .mapping tag r.1 else .sequence tag r.1, r.2))

theorem readMany_yamlNodes (read : Bytes → Option (Node × Bytes)) (content : List Node)
    (h : ∀ n ∈ content, ∀ rest, read (yamlNode n ++ rest) = some (n, rest)) (rest : Bytes) :
    readMany read content.length (yamlNodes content ++ rest) = some (content, rest) := by
  induction content with
  | nil => rfl
  | cons n content ih =>
    have htail := ih (fun m hm => h m (List.mem_cons_of_mem n hm))
    simp only [List.length_cons, yamlNodes, List.append_assoc, readMany,
      h n List.mem_cons_self, htail, Option.map_some]

theorem length_yamlNode_pos (n : Node) : 0 < (yamlNode n).length := by
  cases n <;> simp [yamlNode]

theorem length_le_yamlNodes (n : Node) (content : List Node) (h : n ∈ content) :
    (yamlNode n).length ≤ (yamlNodes content).length := by
  induction content with
  | nil => cases h
  | cons m content ih =>
    simp only [yamlNodes, List.length_append]
    rcases List.mem_cons.mp h with rfl | h
    · omega
    · have := ih h
      omega

theorem readNode_yamlNode (fuel : ℕ) (n : Node) (h : (yamlNode n).length ≤ fuel) (rest : Bytes) :
    readNode fuel (yamlNode n ++ rest) = some (n, rest) := by
  induction fuel generalizing n rest with
  | zero =>
    have := length_yamlNode_pos n
    omega
  | succ fuel ih =>
    have hmany (content : List Node) (hlen : (yamlNodes content).length ≤ fuel) :
        readMany (readNode fuel) content.length (yamlNodes content ++ rest) =
          some (content, rest) := by
      apply readMany_yamlNodes
      intro m hm rest
      exact ih m ((length_le_yamlNodes m content hm).trans hlen) rest
    cases n with
    | scalar tag value =>
      simp [yamlNode, readNode, readString_yamlString]
    | mapping tag content =>
      simp only [yamlNode, List.length_cons, List.length_append] at h
      simp [yamlNode, readNode, readString_yamlString, readLength_yamlLength,
        hmany content (by omega)]
    | sequence tag content =>
      simp only [yamlNode, List.length_cons, List.length_append] at h
      simp [yamlNode, readNode, readString_yamlString, readLength_yamlLength,
        hmany content (by omega)]
    | _ => simp [yamlNode, readNode]

def readInt (s : List Char) : Option ℤ :=
  let digits := if s.head? = some '-' then s.tail else s
  if digits = [] ∨ ¬ digits.all Char.isDigit then none
  else some (if s.head? = some '-' then -(Nat.ofDigitChars 10 digits 0 : ℤ)
    else Nat.ofDigitChars 10 digits 0)

theorem readInt_itoa (n : ℤ) : readInt (itoa n) = some n := by
  have hdigits : (Nat.toDigits 10 n.natAbs).all Char.isDigit = true :=
    List.all_eq_true.mpr (fun c hc => Nat.isDigit_of_mem_toDigits (by decide) (by decide) hc)
  have hne : Nat.toDigits 10 n.natAbs ≠ [] := Nat.toDigits_ne_nil
  unfold readInt itoa
  by_cases hn : n < 0
  · simp only [if_pos hn, List.singleton_append, List.head?_cons, List.tail_cons, if_true, hne,
      hdigits, Nat.ofDigitChars_ten_toDigits]
    simp [abs_of_neg hn]
  · have hhead : (Nat.toDigits 10 n.natAbs).head? ≠ some '-' := by
      intro hh
      have := Nat.isDigit_of_mem_toDigits (by decide) (by decide) (List.mem_of_mem_head? hh)
      simp at this
    simp only [if_neg hn, List.nil_append, hhead, if_false, hne, hdigits,
      Nat.ofDigitChars_ten_toDigits]
    simpa using not_lt.mp hn

def yamlInt (n : ℤ) : Node := .scalar "!!int" (String.ofList (itoa n))

/-- Of the floats only 0, 1/2 and 1 are printed as the library does. -/
def yamlFloat (x : Float64) : Node :=
  .scalar "!!float" (if x = Float64.zero then "0" else if x = Float64.one then "1"
    else if x = ⟨0x3FE0000000000000⟩ then "0.5" else String.ofList ('b' :: itoa x.bits.toNat))

def readFloat (s : String) : Option Float64 :=
  if s = "0" then some Float64.zero else if s = "1" then some Float64.one
  else if s = "0.5" then some ⟨0x3FE0000000000000⟩
  else (readInt s.toList.tail).map (fun n => ⟨UInt64.ofNat n.toNat⟩)

theorem readFloat_yamlFloat (x : Float64) : readFloat (yamlFloat x).value = some x := by
  have hother (s : String) (hs : s.toList.head? ≠ some 'b') (n : ℤ) :
      String.ofList ('b' :: itoa n) ≠ s := by
    rintro rfl
    simp at hs
  unfold yamlFloat readFloat Node.value
  by_cases h0 : x = Float64.zero
  · simp [h0]
  by_cases h1 : x = Float64.one
  · simp [h1, Float64.one, Float64.zero]
  by_cases h2 : x = ⟨0x3FE0000000000000⟩
  · simp [h2, Float64.one, Float64.zero]
  simp only [if_neg h0, if_neg h1, if_neg h2, if_neg (hother "0" (by decide) _),
    if_neg (hother "1" (by decide) _), if_neg (hother "0.5" (by decide) _), String.toList_ofList,
    List.tail_cons, readInt_itoa]
  simp

/-- Of the durations only those of the concrete configurations are printed as the library does. -/
def yamlDuration (d : Int64) : String :=
  if d = 30000000000 then "30s" else if d = 1000000 then "1ms"
  else String.ofList (itoa d.toInt ++ ['n', 's'])

def readDuration (s : String) : Option Int64 :=
  if s = "30s" then some 30000000000 else if s = "1ms" then some 1000000
  else if s.toList.drop (s.toList.length - 2) = ['n', 's'] then
    (readInt (s.toList.take (s.toList.length - 2))).map Int64.ofInt
  else none

theorem readDuration_yamlDuration (d : Int64) : readDuration (yamlDuration d) = some d := by
  have hother (s : String) (hs : s.toList.drop (s.toList.length - 2) ≠ ['n', 's']) :
      String.ofList (itoa d.toInt ++ ['n', 's']) ≠ s := by
    rintro rfl
    simp at hs
  unfold yamlDuration readDuration
  by_cases h30 : d = 30000000000
  · simp [h30]
  by_cases h1 : d = 1000000
  · simp [h1]
  rw [if_neg h30, if_neg h1, if_neg (hother "30s" (by decide)), if_neg (hother "1ms" (by decide))]
  simp [readInt_itoa]

def standardYaml (text : Bytes) (document : Node) : Yaml where
  documents data :=
    if data = text then [some [document]]
    else ((readNode data.length data).map (fun r => some [r.1])).toList
  marshal n := if yamlNode n = yamlNode document then text else yamlNode n
  decodeString n := some n.value
  decodeBool n := if n.value = "true" then some true else if n.value = "false" then some false else none
  decodeInt n := (readInt n.value.toList).map Int64.ofInt
  decodeUint n := (readInt n.value.toList).map (fun n => UInt64.ofNat n.toNat)
  decodeFloat n := readFloat n.value
  parseDuration := readDuration
  encodeBool b := .scalar "!!bool" (if b then "true" else "false")
  encodeInt n := yamlInt n.toInt
  encodeUint n := yamlInt n.toNat
  encodeFloat := yamlFloat
  durationString := yamlDuration

def Yaml.withText (y : Yaml) (text : Bytes) (document : Node) : Yaml :=
  { y with documents := fun data => if data = text then [some [document]] else y.documents data }

def plainText (text : Bytes) : Bool := text.head?.any (4 ≤ ·)

theorem yamlNode_ne_text (m : Node) (text : Bytes) (h : plainText text = true) : yamlNode m ≠ text := by
  intro hm
  rw [← hm] at h
  cases m <;> simp [plainText, yamlNode] at h

theorem standardYaml_documents (text : Bytes) (document : Node) (h : plainText text = true) (n : Node) :
    (standardYaml text document).documents ((standardYaml text document).marshal n) = [some [n]] := by
  have hread (m : Node) : readNode (yamlNode m).length (yamlNode m) = some (m, []) := by
    simpa using readNode_yamlNode _ m le_rfl []
  simp only [standardYaml]
  by_cases hn : yamlNode n = yamlNode document
  · have hsame := hread n
    rw [hn, hread document] at hsame
    cases hsame
    simp
  · simp [hn, yamlNode_ne_text n text h, hread n]

theorem standardYaml_faithful (text : Bytes) (document : Node) (h : plainText text = true) :
    (standardYaml text document).Faithful where
  string _ := rfl
  bool b := ⟨_, rfl, by cases b <;> rfl⟩
  int n := ⟨_, rfl, by simp [standardYaml, Node.value, readInt_itoa]⟩
  uint n := ⟨_, rfl, by simp [standardYaml, Node.value, readInt_itoa]⟩
  float x := ⟨"!!float", by simp, _, x, rfl, readFloat_yamlFloat x, fun _ _ => rfl, id, id⟩
  duration := readDuration_yamlDuration
  documents n _ := standardYaml_documents text document h n

theorem withText_faithful (text text' : Bytes) (document document' : Node) (h : plainText text = true)
    (h' : plainText text' = true) (hne : text ≠ text') :
    ((standardYaml text document).withText text' document').Faithful := by
  have hbase := standardYaml_faithful text document h
  refine ⟨hbase.string, hbase.bool, hbase.int, hbase.uint, hbase.float, hbase.duration, ?_⟩
  intro n _
  have hprint : (standardYaml text document).marshal n ≠ text' := by
    simp only [standardYaml]
    split_ifs
    · exact hne
    · exact yamlNode_ne_text n text' h'
  simp only [Yaml.withText, if_neg hprint]
  exact standardYaml_documents text document h n

end Faultline
