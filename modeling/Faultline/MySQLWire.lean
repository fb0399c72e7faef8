import Faultline.ByteOrder

/-! Packets of the MySQL protocol, the status words in them and the statements that
the adapter tells apart. -/
namespace Faultline.MySQL

def maxPacket : ℕ := 2^20

/-- A packet that `readPacket` returns: it is not empty and not too long. -/
structure Packet where
  seq : UInt8
  body : Bytes
  nonempty : body ≠ []
  bounded : body.length ≤ maxPacket
  deriving DecidableEq

def Packet.code (p : Packet) : UInt8 := p.body.head p.nonempty

def Packet.bytes (p : Packet) : Bytes := putLE 3 p.body.length ++ p.seq :: p.body

/-- The packet that `reject` sends before the session ends. -/
def rejection (seq : UInt8) : Packet where
  seq := seq
  body := [0xff, 0x15, 0x04] ++ bytesOf "#HY000Faultline: unsupported or malformed MySQL protocol"
  nonempty := by simp
  bounded := by decide +kernel

def uint16At (b : Bytes) (i : ℕ) : ℕ := leNat ((b.drop i).take 2)

def uint32At (b : Bytes) (i : ℕ) : ℕ := leNat ((b.drop i).take 4)

def lenencWidth (first : UInt8) : ℕ :=
  if first = 0xfc then 3 else if first = 0xfd then 4 else if first = 0xfe then 9 else 1

def lenenc : Bytes → Option (ℕ × ℕ)
  | [] => none
  | first :: rest =>
    if first = 0xfb ∨ first = 0xff then none
    else if lenencWidth first = 1 then some (first.toNat, 1)
    else if rest.length + 1 < lenencWidth first then none
    else some (leNat (rest.take (lenencWidth first - 1)), lenencWidth first)

def okStatus (b : Bytes) : Option ℕ :=
  if b.length < 7 ∨ b.head? ≠ some 0 ∧ b.head? ≠ some 0xfe then none
  else match lenenc (b.drop 1) with
    | none => none
    | some (_, n) =>
      match lenenc (b.drop (1+n)) with
      | none => none
      | some (_, m) => if b.length < 1+n+m+4 then none else some (uint16At b (1+n+m))

/-- The status word of the packet that ends rows or, before `DEPRECATE_EOF`, definitions. -/
def eofStatus (b : Bytes) (modern : Bool) : Option ℕ :=
  if b.head? ≠ some 0xfe then none
  else if modern then okStatus b
  else if b.length ≠ 5 then none
  else some (uint16At b 3)

def inTrans (status : ℕ) : Bool := status.testBit 0

def moreResults (status : ℕ) : Bool := status.testBit 3

inductive Statement where
  | ordinary
  | begin
  | commit
  | rollback
  | unsupported
  deriving DecidableEq

/-- The rune at the start of a text, by its first byte and the bytes after it, and its
width. Bytes that are no UTF-8 are runes of width 1, U+FFFD. -/
def decodeRune (first : UInt8) (rest : Bytes) : ℕ × ℕ :=
  let tail (i : ℕ) : ℕ := (rest.getD i 0).toNat
  let continues (i lo hi : ℕ) : Bool := i < rest.length && lo ≤ tail i && tail i ≤ hi
  let b := first.toNat
  if b < 0x80 then (b, 1)
  else if 0xC2 ≤ b ∧ b ≤ 0xDF ∧ continues 0 0x80 0xBF then ((b - 0xC0)*64 + (tail 0 - 0x80), 2)
  else if 0xE0 ≤ b ∧ b ≤ 0xEF ∧
      continues 0 (if b = 0xE0 then 0xA0 else 0x80) (if b = 0xED then 0x9F else 0xBF) ∧
      continues 1 0x80 0xBF then
    ((b - 0xE0)*4096 + (tail 0 - 0x80)*64 + (tail 1 - 0x80), 3)
  else if 0xF0 ≤ b ∧ b ≤ 0xF4 ∧
      continues 0 (if b = 0xF0 then 0x90 else 0x80) (if b = 0xF4 then 0x8F else 0xBF) ∧
      continues 1 0x80 0xBF ∧ continues 2 0x80 0xBF then
    ((b - 0xF0)*262144 + (tail 0 - 0x80)*4096 + (tail 1 - 0x80)*64 + (tail 2 - 0x80), 4)
  else (0xFFFD, 1)

/-- The runes of a text, after some bytes that belong to the rune before. -/
def runesFrom : ℕ → Bytes → List ℕ
  | _, [] => []
  | k+1, _ :: s => runesFrom k s
  | 0, b :: s => (decodeRune b s).1 :: runesFrom ((decodeRune b s).2 - 1) s

def runes (s : Bytes) : List ℕ := runesFrom 0 s

/-- `unicode.IsSpace`. -/
def isSpace (r : ℕ) : Bool :=
  (9 ≤ r && r ≤ 13) || r = 0x20 || r = 0x85 || r = 0xA0 || r = 0x1680 || (0x2000 ≤ r && r ≤ 0x200A) ||
    r = 0x2028 || r = 0x2029 || r = 0x202F || r = 0x205F || r = 0x3000

/-- `unicode.ToUpper` where the result is an ASCII letter: besides the small ASCII
letters, only the dotless i and the long s have such a capital. The capitals of the
other runes are neither ASCII nor spaces, so `classify` cannot tell them from the runes. -/
def toUpper (r : ℕ) : ℕ :=
  if 97 ≤ r ∧ r ≤ 122 then r - 32 else if r = 0x131 then 73 else if r = 0x17F then 83 else r

def trimSpace (s : List ℕ) : List ℕ := ((s.dropWhile isSpace).reverse.dropWhile isSpace).reverse

/-- `strings.Fields` joined by single spaces. -/
def joinFields (s : List ℕ) : List ℕ :=
  List.intercalate [32] ((s.splitOnP isSpace).filter (· ≠ []))

def trimSemicolon (s : List ℕ) : List ℕ := if s.getLast? = some 59 then s.dropLast else s

def keyword (s : String) : List ℕ := s.toList.map Char.toNat

def classify (sql : Bytes) : Statement :=
  let s := joinFields (trimSpace (trimSemicolon ((trimSpace (runes sql)).map toUpper)))
  if s ∈ ["BEGIN", "BEGIN WORK", "START TRANSACTION"].map keyword then .begin
  else if s ∈ ["COMMIT", "COMMIT WORK"].map keyword then .commit
  else if s ∈ ["ROLLBACK", "ROLLBACK WORK"].map keyword then .rollback
  else if (["CALL ", "XA ", "PREPARE ", "EXECUTE ", "LOAD DATA "].map keyword).any (·.isPrefixOf s) then
    .unsupported
  else .ordinary

end Faultline.MySQL
