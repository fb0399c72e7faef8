import Faultline.ConfigValidate

/-! The strict decoder and the encoder of configurations. The YAML library is a
parameter: it turns text into nodes, decodes and prints scalars, and prints nodes. -/
namespace Faultline

/-- A YAML node. The content of a mapping alternates keys and values. -/
inductive Node where
  | scalar (tag value : String)
  | mapping (tag : String) (content : List Node)
  | sequence (tag : String) (content : List Node)
  | alias

def Node.tag : Node → String
  | .scalar tag _ => tag
  | .mapping tag _ => tag
  | .sequence tag _ => tag
  | .alias => ""

def Node.value : Node → String
  | .scalar _ value => value
  | _ => ""

def Node.isAlias : Node → Bool
  | .alias => true
  | _ => false

/-- The YAML library. `documents` lists what successive calls of `Decode` return up
to the end of the text: the content of a document node, or `none` for an error. -/
structure Yaml where
  documents : Bytes → List (Option (List Node))
  marshal : Node → Bytes
  decodeString : Node → Option String
  decodeBool : Node → Option Bool
  decodeInt : Node → Option Int64
  decodeUint : Node → Option UInt64
  decodeFloat : Node → Option Float64
  parseDuration : String → Option Int64
  encodeBool : Bool → Node
  encodeInt : Int64 → Node
  encodeUint : UInt64 → Node
  encodeFloat : Float64 → Node
  durationString : Int64 → String

/-- A call of `decodeNode` for one Go type: the node, the field path and the value
that the field holds before. -/
abbrev Decoder (α : Type) := Node → String → α → Except FieldError α

def failAt {α : Type} (path message : String) : Except FieldError α :=
  invalid (if path = "" then "config" else path) message

/-- The test at the start of every call of `decodeNode`. -/
def notNull {α : Type} (decode : Decoder α) : Decoder α := fun n path v =>
  if n.isAlias ∨ n.tag = "!!null" then failAt path "aliases and null values are not supported"
  else decode n path v

def decodePointer {α : Type} (zero : α) (decode : Decoder α) : Decoder (Option α) :=
  notNull (fun n path _ => (decode n path zero).map some)

def decodeDuration (y : Yaml) : Decoder Int64 :=
  notNull (fun n path _ =>
    if n.tag ≠ "!!str" then failAt path "expected a duration string"
    else match y.parseDuration n.value with
    | none => failAt path "invalid duration"
    | some d => .ok d)

def decodeScalar {α : Type} (tags : List String) (decode : Node → Option α) : Decoder α :=
  notNull (fun n path _ =>
    match n with
    | .scalar tag _ =>
      if tag ∉ tags then failAt path "invalid scalar type"
      else match decode n with
      | none => failAt path "invalid scalar value"
      | some v => .ok v
    | _ => failAt path "invalid scalar type")

def decodeString (y : Yaml) : Decoder String := decodeScalar ["!!str"] y.decodeString

def decodeBool (y : Yaml) : Decoder Bool := decodeScalar ["!!bool"] y.decodeBool

def decodeInt (y : Yaml) : Decoder Int64 := decodeScalar ["!!int"] y.decodeInt

def decodeUint (y : Yaml) : Decoder UInt64 := decodeScalar ["!!int"] y.decodeUint

def decodeFloat (y : Yaml) : Decoder Float64 := decodeScalar ["!!float", "!!int"] y.decodeFloat

def childPath (path key : String) : String := if path = "" then key else path ++ "." ++ key

/-- The loop over the pairs of a mapping. `field` decodes the value of one key into
the struct or map; it is none for an unknown struct field. -/
def decodePairs {α : Type} (field : String → Option (Decoder α)) (path : String) :
    List String → List Node → α → Except FieldError α
  | seen, key :: value :: rest, v => do
    reject (key.tag ≠ "!!str") (if path = "" then "config" else path)
      "expected string field names; YAML merges are not supported"
    reject (key.value ∈ seen) (childPath path key.value) "duplicate field"
    match field key.value with
    | none => invalid (childPath path key.value) "unknown field"
    | some decode =>
      let v ← decode value (childPath path key.value) v
      decodePairs field path (key.value :: seen) rest v
  | _, _, v => .ok v

def decodeMapping {α : Type} (start : α → α) (field : String → Option (Decoder α)) : Decoder α :=
  notNull (fun n path v =>
    match n with
    | .mapping _ content => decodePairs field path [] content (start v)
    | _ => failAt path "expected a mapping")

def structField {α β : Type} (get : α → β) (set : α → β → α) (decode : Decoder β) : Decoder α :=
  fun n path v => (decode n path (get v)).map (set v)

def decodeStruct {α : Type} (fields : List (String × Decoder α)) : Decoder α :=
  decodeMapping id (fun key => fields.lookup key)

def decodeHeaders (y : Yaml) : Decoder (Option (OrdMap String String)) :=
  decodeMapping (fun _ => some ∅) (fun key => some (fun n path h =>
    (decodeString y n path "").map (fun value => some ((h.getD ∅).insert key value))))

def decodeItems {α : Type} (zero : α) (decode : Decoder α) (path : String) :
    ℕ → List Node → Except FieldError (List α)
  | _, [] => .ok []
  | i, n :: rest => do
    let item ← decode n (elementPath path i) zero
    let items ← decodeItems zero decode path (i+1) rest
    return item :: items

def decodeSlice {α : Type} (zero : α) (decode : Decoder α) : Decoder (List α) :=
  notNull (fun n path _ =>
    match n with
    | .sequence _ content => decodeItems zero decode path 0 content
    | _ => failAt path "expected a sequence")

def decodeRuntime (y : Yaml) : Decoder Runtime := decodeStruct
  [("max_inflight_requests", structField Runtime.maxInflightRequests
      (fun r x => { r with maxInflightRequests := x }) (decodeInt y)),
    ("request_timeout", structField Runtime.requestTimeout
      (fun r x => { r with requestTimeout := x }) (decodeDuration y))]

def decodeListenerTLS (y : Yaml) : Decoder ListenerTLS := decodeStruct
  [("cert_file", structField ListenerTLS.certFile (fun t x => { t with certFile := x }) (decodeString y)),
    ("key_file", structField ListenerTLS.keyFile (fun t x => { t with keyFile := x }) (decodeString y)),
    ("client_ca_file", structField ListenerTLS.clientCAFile (fun t x => { t with clientCAFile := x })
      (decodeString y))]

def decodeUpstreamTLS (y : Yaml) : Decoder UpstreamTLS := decodeStruct
  [("ca_file", structField UpstreamTLS.caFile (fun t x => { t with caFile := x }) (decodeString y)),
    ("cert_file", structField UpstreamTLS.certFile (fun t x => { t with certFile := x }) (decodeString y)),
    ("key_file", structField UpstreamTLS.keyFile (fun t x => { t with keyFile := x }) (decodeString y))]

def decodeMatcher (y : Yaml) : Decoder Matcher := decodeStruct
  [("path_pattern", structField Matcher.pathPattern (fun m x => { m with pathPattern := x })
      (decodeString y)),
    ("method", structField Matcher.method (fun m x => { m with method := x }) (decodeString y)),
    ("service", structField Matcher.service (fun m x => { m with service := x }) (decodeString y)),
    ("path", structField Matcher.path (fun m x => { m with path := x }) (decodeString y)),
    ("headers", structField Matcher.headers (fun m x => { m with headers := x }) (decodeHeaders y))]

def decodeSelector (y : Yaml) : Decoder Selector := decodeStruct
  [("probability", structField Selector.probability (fun s x => { s with probability := x })
      (decodePointer Float64.zero (decodeFloat y))),
    ("nth", structField Selector.nth (fun s x => { s with nth := x }) (decodePointer 0 (decodeUint y))),
    ("every", structField Selector.every (fun s x => { s with every := x })
      (decodePointer 0 (decodeUint y)))]

def decodeFault (y : Yaml) : Decoder Fault := decodeStruct
  [("phase", structField Fault.phase (fun f x => { f with phase := x }) (decodeString y)),
    ("action", structField Fault.action (fun f x => { f with action := x }) (decodeString y)),
    ("duration", structField Fault.duration (fun f x => { f with duration := x })
      (decodePointer 0 (decodeDuration y))),
    ("max_duration", structField Fault.maxDuration (fun f x => { f with maxDuration := x })
      (decodePointer 0 (decodeDuration y))),
    ("status", structField Fault.status (fun f x => { f with status := x })
      (decodePointer 0 (decodeInt y))),
    ("body", structField Fault.body (fun f x => { f with body := x })
      (decodePointer "" (decodeString y))),
    ("direction", structField Fault.direction (fun f x => { f with direction := x }) (decodeString y)),
    ("bytes", structField Fault.bytes (fun f x => { f with bytes := x }) (decodePointer 0 (decodeInt y))),
    ("bytes_per_second", structField Fault.bytesPerSecond (fun f x => { f with bytesPerSecond := x })
      (decodePointer 0 (decodeInt y))),
    ("after_bytes", structField Fault.afterBytes (fun f x => { f with afterBytes := x })
      (decodePointer 0 (decodeInt y))),
    ("after_duration", structField Fault.afterDuration (fun f x => { f with afterDuration := x })
      (decodePointer 0 (decodeDuration y))),
    ("trigger_direction", structField Fault.triggerDirection (fun f x => { f with triggerDirection := x })
      (decodeString y))]

def ruleFields (y : Yaml) : List (String × Decoder Rule) :=
  [("id", structField Rule.id (fun r x => { r with id := x }) (decodeString y)),
    ("enabled", structField Rule.enabled (fun r x => { r with enabled := x }) (decodeBool y)),
    ("match", structField Rule.matcher (fun r x => { r with matcher := x }) (decodeMatcher y)),
    ("select", structField Rule.select (fun r x => { r with select := x }) (decodeSelector y)),
    ("fault", structField Rule.fault (fun r x => { r with fault := x }) (decodeFault y))]

/-- A rule is enabled unless it says otherwise. -/
def decodeRule (y : Yaml) : Decoder Rule :=
  decodeMapping (fun r => { r with enabled := true }) (fun key => (ruleFields y).lookup key)

def decodeProxy (y : Yaml) : Decoder Proxy := decodeStruct
  [("id", structField Proxy.id (fun p x => { p with id := x }) (decodeString y)),
    ("protocol", structField Proxy.protocol (fun p x => { p with protocol := x }) (decodeString y)),
    ("upstream_protocol", structField Proxy.upstreamProtocol (fun p x => { p with upstreamProtocol := x })
      (decodeString y)),
    ("listen", structField Proxy.listen (fun p x => { p with listen := x }) (decodeString y)),
    ("upstream", structField Proxy.upstream (fun p x => { p with upstream := x }) (decodeString y)),
    ("tls", structField Proxy.tls (fun p x => { p with tls := x })
      (decodePointer ⟨"", "", ""⟩ (decodeListenerTLS y))),
    ("upstream_tls", structField Proxy.upstreamTLS (fun p x => { p with upstreamTLS := x })
      (decodePointer ⟨"", "", ""⟩ (decodeUpstreamTLS y))),
    ("rules", structField Proxy.ruleList (fun p x => { p with rules := some x })
      (decodeSlice Rule.zero (decodeRule y)))]

def configFields (y : Yaml) : List (String × Decoder Config) :=
  [("api_version", structField Config.apiVersion (fun c x => { c with apiVersion := x }) (decodeString y)),
    ("seed", structField Config.seed (fun c x => { c with seed := x }) (decodeUint y)),
    ("runtime", structField Config.runtime (fun c x => { c with runtime := x }) (decodeRuntime y)),
    ("proxies", structField Config.proxies (fun c x => { c with proxies := x })
      (decodeSlice Proxy.zero (decodeProxy y)))]

def decodeConfig (y : Yaml) : Decoder Config := decodeStruct (configFields y)

/-- The root file of `Load`: a configuration and the files it includes. -/
structure RootConfig where
  config : Config
  includes : List String
  deriving DecidableEq

def decodeRoot (y : Yaml) : Decoder RootConfig := decodeStruct
  ((configFields y).map (fun f =>
      (f.1, structField RootConfig.config (fun r x => { r with config := x }) f.2)) ++
    [("include", structField RootConfig.includes (fun r x => { r with includes := x })
      (decodeSlice "" (decodeString y)))])

def decodeFragment (y : Yaml) : Decoder (List Proxy) := decodeStruct
  [("proxies", structField id (fun _ x => x) (decodeSlice Proxy.zero (decodeProxy y)))]

def decodeDocument {α : Type} (y : Yaml) (decode : Decoder α) (data : Bytes) (target : α) :
    Except FieldError α :=
  match y.documents data with
  | some content :: rest => do
    reject (rest.length ≠ 0) "config" "expected exactly one YAML document"
    match content with
    | [n] => decode n "" target
    | _ => invalid "config" "expected a mapping"
  | _ => invalid "config" "expected one valid YAML document"

def Node.str (s : String) : Node := .scalar "!!str" s

def Node.null : Node := .scalar "!!null" "null"

def encodePointer {α : Type} (encode : α → Node) : Option α → Node
  | none => .null
  | some a => encode a

def fieldNodes : List (String × Node) → List Node
  | [] => []
  | (key, value) :: rest => .str key :: value :: fieldNodes rest

def encodeStruct (fields : List (String × Node)) : Node := .mapping "!!map" (fieldNodes fields)

def encodeDuration (y : Yaml) (d : Int64) : Node := .str (y.durationString d)

/-- A header map; the library prints a nil map like an empty one. -/
def encodeHeaders (headers : Option (OrdMap String String)) : Node :=
  encodeStruct ((headers.getD ∅).entries.map (fun e => (e.1, .str e.2)))

def encodeRuntime (y : Yaml) (r : Runtime) : Node := encodeStruct
  [("max_inflight_requests", y.encodeInt r.maxInflightRequests),
    ("request_timeout", encodeDuration y r.requestTimeout)]

def encodeListenerTLS (t : ListenerTLS) : Node := encodeStruct
  [("cert_file", .str t.certFile), ("key_file", .str t.keyFile), ("client_ca_file", .str t.clientCAFile)]

def encodeUpstreamTLS (t : UpstreamTLS) : Node := encodeStruct
  [("ca_file", .str t.caFile), ("cert_file", .str t.certFile), ("key_file", .str t.keyFile)]

def encodeMatcher (m : Matcher) : Node := encodeStruct
  [("path_pattern", .str m.pathPattern), ("method", .str m.method), ("service", .str m.service),
    ("path", .str m.path), ("headers", encodeHeaders m.headers)]

def encodeSelector (y : Yaml) (s : Selector) : Node := encodeStruct
  [("probability", encodePointer y.encodeFloat s.probability), ("nth", encodePointer y.encodeUint s.nth),
    ("every", encodePointer y.encodeUint s.every)]

def encodeFault (y : Yaml) (f : Fault) : Node := encodeStruct
  [("phase", .str f.phase), ("action", .str f.action),
    ("duration", encodePointer (encodeDuration y) f.duration),
    ("max_duration", encodePointer (encodeDuration y) f.maxDuration),
    ("status", encodePointer y.encodeInt f.status), ("body", encodePointer .str f.body),
    ("direction", .str f.direction), ("bytes", encodePointer y.encodeInt f.bytes),
    ("bytes_per_second", encodePointer y.encodeInt f.bytesPerSecond),
    ("after_bytes", encodePointer y.encodeInt f.afterBytes),
    ("after_duration", encodePointer (encodeDuration y) f.afterDuration),
    ("trigger_direction", .str f.triggerDirection)]

def encodeRule (y : Yaml) (r : Rule) : Node := encodeStruct
  [("id", .str r.id), ("enabled", y.encodeBool r.enabled), ("match", encodeMatcher r.matcher),
    ("select", encodeSelector y r.select), ("fault", encodeFault y r.fault)]

def encodeProxy (y : Yaml) (p : Proxy) : Node := encodeStruct
  [("id", .str p.id), ("protocol", .str p.protocol), ("upstream_protocol", .str p.upstreamProtocol),
    ("listen", .str p.listen), ("upstream", .str p.upstream), ("tls", encodePointer encodeListenerTLS p.tls),
    ("upstream_tls", encodePointer encodeUpstreamTLS p.upstreamTLS),
    ("rules", .sequence "!!seq" (p.ruleList.map (encodeRule y)))]

/-- `node.Encode(c)`: the library's reading of the struct tags. -/
def encodeConfig (y : Yaml) (c : Config) : Node := encodeStruct
  [("api_version", .str c.apiVersion), ("seed", y.encodeUint c.seed),
    ("runtime", encodeRuntime y c.runtime),
    ("proxies", .sequence "!!seq" (c.proxies.map (encodeProxy y)))]

mutual

/-- The pruning of `Encode`: a mapping loses the pairs with a null value. -/
def prune : Node → Node
  | .mapping tag content => .mapping tag (prunePairs content)
  | .sequence tag content => .sequence tag (pruneItems content)
  | .scalar tag value => .scalar tag value
  | .alias => .alias

def prunePairs : List Node → List Node
  | key :: value :: rest =>
    if value.tag = "!!null" then prunePairs rest else key :: prune value :: prunePairs rest
  | _ => []

def pruneItems : List Node → List Node
  | [] => []
  | n :: rest => prune n :: pruneItems rest

end

def encode (y : Yaml) (c : Config) : Bytes := y.marshal (prune (encodeConfig y c))

inductive Encoded (y : Yaml) : Node → Prop where
  | str (s : String) : Encoded y (.str s)
  | bool (b : Bool) : Encoded y (y.encodeBool b)
  | int (n : Int64) : Encoded y (y.encodeInt n)
  | uint (n : UInt64) : Encoded y (y.encodeUint n)
  | float (x : Float64) : Encoded y (y.encodeFloat x)
  | mapping (fields : List (String × Node)) (h : ∀ f ∈ fields, Encoded y f.2) :
      Encoded y (encodeStruct fields)
  | sequence (content : List Node) (h : ∀ n ∈ content, Encoded y n) :
      Encoded y (.sequence "!!seq" content)

/-- The float that is read back. A negative zero may lose its sign, and one number that is not
a number may become another. -/
structure SameFloat (x z : Float64) : Prop where
  same : x.isNaN = false → (x.eq Float64.zero → x = Float64.zero) → z = x
  zero : x.eq Float64.zero → z.eq Float64.zero
  nan : x.isNaN = true → z.isNaN = true

/-- The library gives back what it printed: scalars with the tag of their kind,
durations, and the nodes of a marshalled document. -/
structure Yaml.Faithful (y : Yaml) : Prop where
  string : ∀ s, y.decodeString (.str s) = some s
  bool : ∀ b, ∃ v, y.encodeBool b = .scalar "!!bool" v ∧ y.decodeBool (.scalar "!!bool" v) = some b
  int : ∀ n, ∃ v, y.encodeInt n = .scalar "!!int" v ∧ y.decodeInt (.scalar "!!int" v) = some n
  uint : ∀ n, ∃ v, y.encodeUint n = .scalar "!!int" v ∧ y.decodeUint (.scalar "!!int" v) = some n
  float : ∀ x, ∃ tag ∈ ["!!float", "!!int"], ∃ v z, y.encodeFloat x = .scalar tag v ∧
    y.decodeFloat (.scalar tag v) = some z ∧ SameFloat x z
  duration : ∀ d, y.parseDuration (y.durationString d) = some d
  documents : ∀ n, Encoded y n → y.documents (y.marshal n) = [some [n]]

end Faultline
