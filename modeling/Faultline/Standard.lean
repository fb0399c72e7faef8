import Faultline.ByteOrder
import Faultline.Config

/-! The hash, the JSON printer and the generator of the standard library, as far as
concrete configurations reach them. The general results hold for every `Library`. -/
namespace Faultline

def rotateRight (x n : UInt32) : UInt32 := (x >>> n) ||| (x <<< (32 - n))

def sha256Constants : List UInt32 :=
  [0x428a2f98, 0x71374491, 0xb5c0fbcf, 0xe9b5dba5, 0x3956c25b, 0x59f111f1, 0x923f82a4, 0xab1c5ed5,
    0xd807aa98, 0x12835b01, 0x243185be, 0x550c7dc3, 0x72be5d74, 0x80deb1fe, 0x9bdc06a7, 0xc19bf174,
    0xe49b69c1, 0xefbe4786, 0x0fc19dc6, 0x240ca1cc, 0x2de92c6f, 0x4a7484aa, 0x5cb0a9dc, 0x76f988da,
    0x983e5152, 0xa831c66d, 0xb00327c8, 0xbf597fc7, 0xc6e00bf3, 0xd5a79147, 0x06ca6351, 0x14292967,
    0x27b70a85, 0x2e1b2138, 0x4d2c6dfc, 0x53380d13, 0x650a7354, 0x766a0abb, 0x81c2c92e, 0x92722c85,
    0xa2bfe8a1, 0xa81a664b, 0xc24b8b70, 0xc76c51a3, 0xd192e819, 0xd6990624, 0xf40e3585, 0x106aa070,
    0x19a4c116, 0x1e376c08, 0x2748774c, 0x34b0bcb5, 0x391c0cb3, 0x4ed8aa4a, 0x5b9cca4f, 0x682e6ff3,
    0x748f82ee, 0x78a5636f, 0x84c87814, 0x8cc70208, 0x90befffa, 0xa4506ceb, 0xbef9a3f7, 0xc67178f2]

def sha256Start : List UInt32 :=
  [0x6a09e667, 0xbb67ae85, 0x3c6ef372, 0xa54ff53a, 0x510e527f, 0x9b05688c, 0x1f83d9ab, 0x5be0cd19]

/-- The message schedule, newest word first, extended by `k` words. -/
def sha256Schedule : ℕ → List UInt32 → List UInt32
  | 0, ws => ws
  | k+1, ws =>
    let w2 := ws.getD 1 0
    let w15 := ws.getD 14 0
    let s0 := rotateRight w15 7 ^^^ rotateRight w15 18 ^^^ (w15 >>> 3)
    let s1 := rotateRight w2 17 ^^^ rotateRight w2 19 ^^^ (w2 >>> 10)
    sha256Schedule k ((ws.getD 15 0 + s0 + ws.getD 6 0 + s1) :: ws)

def sha256Round (h : List UInt32) (kw : UInt32 × UInt32) : List UInt32 :=
  match h with
  | [a, b, c, d, e, f, g, i] =>
    let s1 := rotateRight e 6 ^^^ rotateRight e 11 ^^^ rotateRight e 25
    let t1 := i + s1 + ((e &&& f) ^^^ (~~~e &&& g)) + kw.1 + kw.2
    let s0 := rotateRight a 2 ^^^ rotateRight a 13 ^^^ rotateRight a 22
    let t2 := s0 + ((a &&& b) ^^^ (a &&& c) ^^^ (b &&& c))
    [t1 + t2, a, b, c, d + t1, e, f, g]
  | _ => h

def sha256Block (h : List UInt32) (block : Bytes) : List UInt32 :=
  let words := (List.range 16).map (fun i => UInt32.ofNat (beNat ((block.drop (4*i)).take 4)))
  let schedule := (sha256Schedule 48 words.reverse).reverse
  List.zipWith (· + ·) h ((sha256Constants.zip schedule).foldl sha256Round h)

def sha256 (data : Bytes) : Digest :=
  let padded := data ++ 0x80 :: List.replicate ((119 - data.length % 64) % 64) 0 ++
    putBE 8 (8*data.length)
  let h := (List.range (padded.length/64)).foldl
    (fun h i => sha256Block h ((padded.drop (64*i)).take 64)) sha256Start
  Vector.ofFn (fun i => (h.flatMap (fun w => putBE 4 w.toNat)).getD i 0)

def jsonChar (c : Char) : List Char :=
  if c = '"' then ['\\', '"'] else if c = '\\' then ['\\', '\\']
  else if c = '\n' then ['\\', 'n'] else if c = '\r' then ['\\', 'r'] else if c = '\t' then ['\\', 't']
  else if c.toNat = 8 then ['\\', 'b'] else if c.toNat = 12 then ['\\', 'f']
  else if c.toNat < 32 ∨ c = '<' ∨ c = '>' ∨ c = '&' ∨ c.toNat = 0x2028 ∨ c.toNat = 0x2029 then
    '\\' :: 'u' :: [c.toNat/4096, c.toNat/256%16, c.toNat/16%16, c.toNat%16].map Nat.digitChar
  else [c]

def jsonString (s : String) : List Char := '"' :: s.toList.flatMap jsonChar ++ ['"']

mutual

/-- `json.Marshal`; of the floats only 0, 1/2 and 1 are printed. -/
def Json.text : Json → Option (List Char)
  | .null => some "null".toList
  | .bool b => some (if b then "true".toList else "false".toList)
  | .int n => some (itoa n)
  | .float x =>
    if x = Float64.zero then some ['0'] else if x = Float64.one then some ['1']
    else if x = ⟨0x3FE0000000000000⟩ then some "0.5".toList else none
  | .str s => some (jsonString s)
  | .arr items => (Json.items items).map (fun t => '[' :: [','].intercalate t ++ [']'])
  | .obj fields => (Json.fields fields).map
      (fun t => Char.ofNat 123 :: [','].intercalate t ++ [Char.ofNat 125])

def Json.items : List Json → Option (List (List Char))
  | [] => some []
  | j :: rest =>
    match j.text, Json.items rest with
    | some t, some ts => some (t :: ts)
    | _, _ => none

def Json.fields : List (String × Json) → Option (List (List Char))
  | [] => some []
  | (key, j) :: rest =>
    match j.text, Json.fields rest with
    | some t, some ts => some ((jsonString key ++ ':' :: t) :: ts)
    | _, _ => none

end

def pcgNext (state : ℕ) : ℕ :=
  (state*(2549297995355413924*2^64 + 4865540595714422341) +
    (6364136223846793005*2^64 + 1442695040888963407)) % 2^128

def pcgOutput (state : ℕ) : UInt64 :=
  let lo := UInt64.ofNat state
  let hi := UInt64.ofNat (state/2^64)
  let hi := (hi ^^^ (hi >>> 32)) * 0xda942042e4dd58b5
  (hi ^^^ (hi >>> 48)) * (lo ||| 1)

/-- The number `m / 2^53` for `m < 2^53`. -/
def unitFloat (m : ℕ) : Float64 :=
  if m = 0 then Float64.zero
  else ⟨UInt64.ofNat ((Nat.log2 m + 970)*2^52 + (m*2^(52 - Nat.log2 m) - 2^52))⟩

def pcg (seed1 seed2 : UInt64) (i : ℕ) : Float64 :=
  unitFloat ((pcgOutput (pcgNext^[i+1] (seed1.toNat*2^64 + seed2.toNat))).toNat % 2^53)

def standardLibrary : Library where
  sha256 := sha256
  marshalJSON j := j.text.map (fun t => bytesOf (String.ofList t))
  x509KeyPair _ _ := false
  pemDecode _ := none
  pemDecode_rest := by intro _ _ h; cases h
  parseCertificate _ := false
  pcg := pcg

end Faultline
