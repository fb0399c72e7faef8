import Faultline.OrdMap
import Faultline.Text

/-! The configuration of a run and the documents that own it. An `int` and a
`time.Duration` are 64-bit signed, a pointer field is an option, and a header map
is optional because Go tells a nil map from an empty one. -/
namespace Faultline

/-- A `float64` as its IEEE 754 bit pattern; only comparisons are made on it. -/
structure Float64 where
  bits : UInt64
  deriving DecidableEq

/-- The position of a number on the real line: signed magnitudes compare as the
numbers do, and both zeros are at 0. -/
def Float64.key (x : Float64) : ℤ :=
  if x.bits.toNat < 2^63 then x.bits.toNat else -((x.bits.toNat : ℤ) - 2^63)

def Float64.isNaN (x : Float64) : Bool := 0x7FF0000000000000 < x.bits.toNat % 2^63

def Float64.isInf (x : Float64) : Bool := x.bits.toNat % 2^63 = 0x7FF0000000000000

def Float64.eq (x y : Float64) : Bool := !x.isNaN && !y.isNaN && x.key = y.key

def Float64.lt (x y : Float64) : Bool := !x.isNaN && !y.isNaN && x.key < y.key

def Float64.zero : Float64 := ⟨0⟩

def Float64.one : Float64 := ⟨0x3FF0000000000000⟩

structure Runtime where
  maxInflightRequests : Int64
  requestTimeout : Int64
  deriving DecidableEq

structure ListenerTLS where
  certFile : String
  keyFile : String
  clientCAFile : String
  deriving DecidableEq

structure UpstreamTLS where
  caFile : String
  certFile : String
  keyFile : String
  deriving DecidableEq

structure Matcher where
  pathPattern : String
  method : String
  service : String
  path : String
  headers : Option (OrdMap String String)
  deriving DecidableEq

structure Selector where
  probability : Option Float64
  nth : Option UInt64
  every : Option UInt64
  deriving DecidableEq

structure Fault where
  phase : String
  action : String
  duration : Option Int64
  maxDuration : Option Int64
  status : Option Int64
  body : Option String
  direction : String
  bytes : Option Int64
  bytesPerSecond : Option Int64
  afterBytes : Option Int64
  afterDuration : Option Int64
  triggerDirection : String
  deriving DecidableEq

structure Rule where
  id : String
  enabled : Bool
  matcher : Matcher
  select : Selector
  fault : Fault
  deriving DecidableEq

/-- A proxy; a nil rule slice differs from an empty one until `validate`. -/
structure Proxy where
  id : String
  protocol : String
  upstreamProtocol : String
  listen : String
  upstream : String
  tls : Option ListenerTLS
  upstreamTLS : Option UpstreamTLS
  rules : Option (List Rule)
  deriving DecidableEq

structure Config where
  apiVersion : String
  seed : UInt64
  runtime : Runtime
  proxies : List Proxy
  deriving DecidableEq

def Proxy.ruleList (p : Proxy) : List Rule := p.rules.getD []

def apiVersion : String := "faultline/v1alpha1"

def afterCommit : String := "after_commit"

def beforeUpstreamRequest : String := "before_upstream_request"

def afterUpstreamHeaders : String := "after_upstream_headers"

def tcpOnConnect : String := "on_connect"

def tcpOnTransfer : String := "on_transfer"

def defaultRuntime : Runtime := ⟨1000, 30000000000⟩

/-! Zero values, which `reflect.New` and `MakeSlice` start a decoded value from. -/

def Matcher.zero : Matcher := ⟨"", "", "", "", none⟩

def Selector.zero : Selector := ⟨none, none, none⟩

def Fault.zero : Fault := ⟨"", "", none, none, none, none, "", none, none, none, none, ""⟩

def Rule.zero : Rule := ⟨"", false, Matcher.zero, Selector.zero, Fault.zero⟩

def Proxy.zero : Proxy := ⟨"", "", "", "", "", none, none, none⟩

def Config.zero : Config := ⟨"", 0, defaultRuntime, []⟩

/-- The value `encoding/json` prints. -/
inductive Json where
  | null
  | bool (b : Bool)
  | int (n : ℤ)
  | float (x : Float64)
  | str (s : String)
  | arr (items : List Json)
  | obj (fields : List (String × Json))

abbrev Digest := Vector UInt8 32

abbrev Digests := OrdMap String Digest

structure PemBlock where
  type : String
  bytes : Bytes
  rest : Bytes

/-- The standard library and hash functions that the program calls without looking
inside; `pcg` is the stream of numbers a generator with two seeds hands out. -/
structure Library where
  sha256 : Bytes → Digest
  marshalJSON : Json → Option Bytes
  x509KeyPair : Bytes → Bytes → Bool
  pemDecode : Bytes → Option PemBlock
  pemDecode_rest : ∀ data block, pemDecode data = some block → block.rest.length < data.length
  parseCertificate : Bytes → Bool
  pcg : UInt64 → UInt64 → ℕ → Float64

def Json.ofOption {α : Type} (f : α → Json) : Option α → Json
  | none => .null
  | some a => f a

def Json.ofInt64 (n : Int64) : Json := .int n.toInt

def Json.ofUInt64 (n : UInt64) : Json := .int n.toNat

def Json.ofHeaders (h : OrdMap String String) : Json :=
  .obj (h.entries.map (fun e => (e.1, .str e.2)))

def Matcher.toJson (m : Matcher) : Json :=
  .obj [("PathPattern", .str m.pathPattern), ("Method", .str m.method), ("Service", .str m.service),
    ("Path", .str m.path), ("Headers", .ofOption .ofHeaders m.headers)]

def Selector.toJson (s : Selector) : Json :=
  .obj [("Probability", .ofOption .float s.probability), ("Nth", .ofOption .ofUInt64 s.nth),
    ("Every", .ofOption .ofUInt64 s.every)]

def Fault.toJson (f : Fault) : Json :=
  .obj [("Phase", .str f.phase), ("Action", .str f.action), ("Duration", .ofOption .ofInt64 f.duration),
    ("MaxDuration", .ofOption .ofInt64 f.maxDuration), ("Status", .ofOption .ofInt64 f.status),
    ("Body", .ofOption .str f.body), ("Direction", .str f.direction),
    ("Bytes", .ofOption .ofInt64 f.bytes), ("BytesPerSecond", .ofOption .ofInt64 f.bytesPerSecond),
    ("AfterBytes", .ofOption .ofInt64 f.afterBytes),
    ("AfterDuration", .ofOption .ofInt64 f.afterDuration),
    ("TriggerDirection", .str f.triggerDirection)]

def Rule.toJson (r : Rule) : Json :=
  .obj [("ID", .str r.id), ("Enabled", .bool r.enabled), ("Match", r.matcher.toJson),
    ("Select", r.select.toJson), ("Fault", r.fault.toJson)]

def ListenerTLS.toJson (t : ListenerTLS) : Json :=
  .obj [("CertFile", .str t.certFile), ("KeyFile", .str t.keyFile),
    ("ClientCAFile", .str t.clientCAFile)]

def UpstreamTLS.toJson (t : UpstreamTLS) : Json :=
  .obj [("CAFile", .str t.caFile), ("CertFile", .str t.certFile), ("KeyFile", .str t.keyFile)]

def Proxy.toJson (p : Proxy) : Json :=
  .obj [("ID", .str p.id), ("Protocol", .str p.protocol),
    ("UpstreamProtocol", .str p.upstreamProtocol), ("Listen", .str p.listen),
    ("Upstream", .str p.upstream), ("TLS", .ofOption ListenerTLS.toJson p.tls),
    ("UpstreamTLS", .ofOption UpstreamTLS.toJson p.upstreamTLS),
    ("Rules", .ofOption (fun rules => .arr (rules.map Rule.toJson)) p.rules)]

def Config.toJson (c : Config) : Json :=
  .obj [("APIVersion", .str c.apiVersion), ("Seed", .ofUInt64 c.seed),
    ("Runtime", .obj [("MaxInflightRequests", .ofInt64 c.runtime.maxInflightRequests),
      ("RequestTimeout", .ofInt64 c.runtime.requestTimeout)]),
    ("Proxies", .arr (c.proxies.map Proxy.toJson))]

def Json.ofDigests (d : Digests) : Json :=
  .obj (d.entries.map (fun e => (e.1, .arr (e.2.toList.map (fun b => .int b.toNat)))))

/-- A document owns a validated configuration with the fingerprints of the whole
of it and of the part that only a restart may change. -/
structure Document where
  config : Config
  valid : Bool
  fingerprint : Digest
  restartFingerprint : Digest
  deriving DecidableEq

/-- `Valid`, `Equal` and `RestartCompatible` are called on pointers that may be nil. -/
def documentValid (d : Option Document) : Bool := d.any (·.valid)

def documentEqual (d e : Option Document) : Bool :=
  documentValid d && documentValid e && d.map (·.fingerprint) = e.map (·.fingerprint)

def restartCompatible (d e : Option Document) : Bool :=
  documentValid d && documentValid e &&
    d.map (·.restartFingerprint) = e.map (·.restartFingerprint)

/-- The hash that `newDocument` takes of a configuration and the TLS files. -/
def configHash (lib : Library) (c : Config) (tlsDigests : Digests) : Option Digest :=
  (lib.marshalJSON (.obj [("Config", c.toJson), ("TLS", .ofDigests tlsDigests)])).map lib.sha256

def canonical (c : Config) : Config :=
  { c with proxies := c.proxies.insertionSort (fun a b => a.id ≤ b.id) }

def restartPart (c : Config) : Config :=
  { c with seed := 0, proxies := c.proxies.map (fun p => { p with rules := none }) }

def newDocument (lib : Library) (c : Config) (tlsDigests : Digests) : Option Document :=
  match configHash lib (canonical c) tlsDigests with
  | none => none
  | some full =>
    match configHash lib (restartPart (canonical c)) tlsDigests with
    | none => none
    | some restart => some ⟨c, true, full, restart⟩

theorem newDocument_some (lib : Library) (c : Config) (tlsDigests : Digests) (d : Document)
    (h : newDocument lib c tlsDigests = some d) : d.config = c ∧ d.valid = true := by
  unfold newDocument at h
  split at h
  · cases h
  · split at h
    · cases h
    · cases h
      exact ⟨rfl, rfl⟩

theorem documentEqual_self (d : Document) (h : d.valid = true) :
    documentEqual (some d) (some d) = true := by
  simp [documentEqual, documentValid, h]

end Faultline
