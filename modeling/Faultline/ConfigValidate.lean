import Faultline.Config
import Faultline.FilePath
import Faultline.NetURL

/-! The checks and the normalization that make a configuration a document. Every
error names the field it is about. -/
namespace Faultline

structure FieldError where
  file : String
  path : String
  message : String
  deriving DecidableEq

def invalid {α : Type} (path message : String) : Except FieldError α := .error ⟨"", path, message⟩

/-- `if cond { return invalid(path, message) }`. -/
def reject (cond : Prop) [Decidable cond] (path message : String) : Except FieldError Unit :=
  if cond then invalid path message else .ok ()

theorem bind_eq_ok {ε α β : Type} (x : Except ε α) (f : α → Except ε β) (b : β) :
    (x >>= f) = .ok b ↔ ∃ a, x = .ok a ∧ f a = .ok b := by
  cases x with
  | error e =>
    constructor
    · intro h
      cases h
    · rintro ⟨a, ha, -⟩
      cases ha
  | ok a =>
    constructor
    · exact fun h => ⟨a, rfl, h⟩
    · rintro ⟨c, hc, hb⟩
      cases hc
      exact hb

@[simp] theorem pure_eq_ok {ε α : Type} (a b : α) : (pure a : Except ε α) = .ok b ↔ a = b := by
  change Except.ok a = .ok b ↔ a = b
  exact Except.ok.injEq a b ▸ Iff.rfl

@[simp] theorem invalid_ne_ok {α : Type} (path message : String) (a : α) :
    invalid path message ≠ .ok a := by
  intro h
  cases h

@[simp] theorem reject_eq_ok (cond : Prop) [Decidable cond] (path message : String) (u : Unit) :
    reject cond path message = .ok u ↔ ¬ cond := by
  unfold reject
  split_ifs with h <;> simp [h]

@[simp] theorem reject_bind_eq_ok {α : Type} (cond : Prop) [Decidable cond] (path message : String)
    (f : Unit → Except FieldError α) (a : α) :
    (reject cond path message >>= f) = .ok a ↔ ¬ cond ∧ f () = .ok a := by
  rw [bind_eq_ok]
  constructor
  · rintro ⟨u, hu, hf⟩
    exact ⟨(reject_eq_ok cond path message u).mp hu, hf⟩
  · rintro ⟨hc, hf⟩
    exact ⟨(), (reject_eq_ok cond path message ()).mpr hc, hf⟩

/-- What `os.Stat` tells of a file: whether it is regular, and which file it is. -/
structure FileInfo where
  regular : Bool
  identity : ℕ

/-- The file system and working directory of the process at one time. -/
structure Host where
  readFile : String → Option Bytes
  stat : String → Option FileInfo
  glob : String → Option (List String)
  getwd : Option String
  getwd_rooted : ∀ wd, getwd = some wd → isAbs wd.toList = true

def identifier (s : String) : Bool :=
  s ≠ "" && s.toList.all (fun c => isAlnum c || c = '-' || c = '_' || c = '.')

def token (s : String) : Bool :=
  s ≠ "" && s.toList.all (fun c => isAlnum c || c ∈ "!#$%&'*+-.^_`|~".toList)

def label (s : List Char) : Bool :=
  s ≠ [] && s.length ≤ 63 && s.head? ≠ some '-' && s.getLast? ≠ some '-' &&
    s.all (fun c => isAlnum c || c = '-')

/-- A host name or an IP address. The lengths count characters: a name with a
character of several bytes is refused whatever its length. -/
def hostname (s : List Char) : Bool :=
  parseIP s || (s ≠ [] && s.length ≤ 253 &&
    ((if s.getLast? = some '.' then s.dropLast else s).splitOn '.').all label)

def containsAny (s chars : String) : Bool := s.toList.any (fun c => c ∈ chars.toList)

/-- The name of one `:name` segment of a path pattern, with the names seen before. -/
def patternSegments (names : List (List Char)) : List (List Char) → Bool
  | [] => true
  | segment :: rest =>
    if ':' ∉ segment then patternSegments names rest
    else match segment with
    | ':' :: first :: more =>
      if !(isAlpha first || first = '_') || !more.all (fun c => isAlnum c || c = '_') then false
      else if first :: more ∈ names then false
      else patternSegments ((first :: more) :: names) rest
    | _ => false

def validPathPattern (pattern : String) : Bool :=
  if pattern.toList.head? ≠ some '/' || containsAny pattern "*?#\r\n" then false
  else patternSegments [] (pattern.toList.splitOn '/')

def isDatabase (protocol : String) : Bool := protocol = "postgresql" || protocol = "mysql"

def validUpstreamScheme (protocol : String) (scheme : List Char) : Bool :=
  if isDatabase protocol then scheme = protocol.toList || scheme = protocol.toList ++ ['s']
  else scheme = "http".toList || scheme = "https".toList

def actions (protocol : String) : List String :=
  if protocol = "tcp" then ["close_connection", "hold", "throttle", "delay_connect"]
  else if isDatabase protocol then ["delay", "hold_response", "close_connection"]
  else ["delay", "hold_request", "hold_response", "truncate", "throttle"] ++
    (if protocol = "http1" ∨ protocol = "http2" then ["respond"] else []) ++
    (if protocol = "http1" then ["close_connection"] else [])

/-- `validateSelector` writes through the probability pointer: a negative zero
becomes zero. -/
def validateSelector (s : Selector) (path : String) : Except FieldError Selector := do
  let probability := s.probability.map (fun p => if p.eq Float64.zero then Float64.zero else p)
  reject (probability.any (fun p => p.isNaN || p.isInf || p.lt Float64.zero || Float64.one.lt p))
    (path ++ ".select.probability") "must be finite and between 0 and 1"
  reject (s.nth = some 0) (path ++ ".select.nth") "must be positive"
  reject (s.every = some 0) (path ++ ".select.every") "must be positive"
  reject (s.probability.isSome.toNat + s.nth.isSome.toNat + s.every.isSome.toNat ≠ 1)
    (path ++ ".select") "exactly one selector is required"
  return { s with probability := probability }

def notPositive (d : Option Int64) : Bool := d.all (· ≤ 0)

/-- The switch of `validateFault` over the actions. -/
def validateAction (f : Fault) (path : String) : Except FieldError Unit :=
  let before := f.phase = beforeUpstreamRequest
  let after := f.phase = afterUpstreamHeaders
  if f.action = "delay" then
    reject (notPositive f.duration) (path ++ ".duration") "positive duration is required"
  else if f.action = "respond" then do
    reject (¬ before) (path ++ ".phase") "respond requires before_upstream_request"
    reject (f.status.all (fun n => n < 200 || 599 < n)) (path ++ ".status")
      "status 200–599 is required"
  else if f.action = "hold_request" ∨ f.action = "hold_response" then do
    reject (f.action = "hold_request" ∧ ¬ before ∨ f.action = "hold_response" ∧ ¬ after)
      (path ++ ".phase") "unsupported action/phase combination"
    reject (notPositive f.maxDuration) (path ++ ".max_duration") "positive max_duration is required"
  else if f.action = "truncate" ∨ f.action = "throttle" then do
    reject (f.direction ≠ "request" ∧ f.direction ≠ "response") (path ++ ".direction")
      "expected request or response"
    reject (¬ (f.direction = "request" ↔ before)) (path ++ ".phase")
      "phase must correspond to direction"
    reject (f.action = "truncate" ∧ f.bytes.all (· < 0)) (path ++ ".bytes")
      "nonnegative byte limit is required"
    reject (f.action = "throttle" ∧ notPositive f.bytesPerSecond) (path ++ ".bytes_per_second")
      "positive rate is required"
  else reject (f.action ≠ "close_connection") (path ++ ".action") "unsupported action"

def validateFault (f : Fault) (path : String) : Except FieldError Unit := do
  reject (f.afterBytes.isSome ∨ f.afterDuration.isSome ∨ f.triggerDirection ≠ "") path
    "TCP trigger fields require protocol tcp"
  reject (f.phase ≠ beforeUpstreamRequest ∧ f.phase ≠ afterUpstreamHeaders) (path ++ ".phase")
    "unsupported phase"
  validateAction f path
  reject (f.direction ≠ "" ∧ f.action ≠ "truncate" ∧ f.action ≠ "throttle") (path ++ ".direction")
    "not supported by this action"
  reject (f.bytes.isSome ∧ f.action ≠ "truncate") (path ++ ".bytes") "not supported by this action"
  reject (f.bytesPerSecond.isSome ∧ f.action ≠ "throttle") (path ++ ".bytes_per_second")
    "not supported by this action"
  reject (f.duration.isSome ∧ f.action ≠ "delay") (path ++ ".duration")
    "not supported by this action"
  reject (f.maxDuration.isSome ∧ f.action ≠ "hold_request" ∧ f.action ≠ "hold_response")
    (path ++ ".max_duration") "not supported by this action"
  reject (f.status.isSome ∧ f.action ≠ "respond") (path ++ ".status") "not supported by this action"
  reject (f.body.isSome ∧ f.action ≠ "respond") (path ++ ".body") "not supported by this action"

def lowerString (s : String) : String := String.ofList (lower s.toList)

/-- The header loop of `validateRule`. Go ranges over the map in any order, which
decides at most which of two errors is reported; here the names come sorted. -/
def validateHeaders (path : String) : List (String × String) → OrdMap String String →
    Except FieldError (OrdMap String String)
  | [], headers => .ok headers
  | (name, value) :: rest, headers => do
    reject (¬ token name ∨ containsAny value "\r\n\x00") (path ++ ".match.headers")
      "invalid header name or value"
    reject (headers.contains (lowerString name)) (path ++ ".match.headers")
      "duplicate case-insensitive header name"
    validateHeaders path rest (headers.insert (lowerString name) value)

def validateRule (r : Rule) (path : String) : Except FieldError Rule := do
  let m := r.matcher
  reject (m.method ≠ "" ∧ ¬ token m.method) (path ++ ".match.method") "invalid method token"
  reject (m.path ≠ "" ∧ (m.path.toList.head? ≠ some '/' ∨ containsAny m.path "?#\r\n"))
    (path ++ ".match.path") "expected an exact path without query or fragment"
  reject (m.pathPattern ≠ "" ∧ m.path ≠ "") (path ++ ".match.path_pattern")
    "cannot combine path and path_pattern"
  reject (m.pathPattern ≠ "" ∧ ¬ validPathPattern m.pathPattern) (path ++ ".match.path_pattern")
    ("expected an absolute path with whole-segment :name parameters; " ++
      "no duplicate names, wildcard, query or fragment")
  let headers ← validateHeaders path (m.headers.getD ∅).entries ∅
  let select ← validateSelector r.select path
  validateFault r.fault (path ++ ".fault")
  let body := if r.fault.action = "respond" ∧ r.fault.body = none then some "" else r.fault.body
  return { r with
    matcher := { m with headers := some headers }
    select := select
    fault := { r.fault with body := body } }

def emptyMatcher (m : Matcher) : Bool :=
  m.method = "" && m.path = "" && m.pathPattern = "" && m.service = "" &&
    (m.headers.getD ∅).size = 0

def tcpDirection (d : String) : Bool := d = "client_to_upstream" || d = "upstream_to_client"

/-- The switch of `validateTCPRule` over the actions. -/
def validateTCPAction (f : Fault) (path : String) : Except FieldError Unit :=
  if f.action = "delay_connect" then
    reject (f.phase ≠ tcpOnConnect ∨ notPositive f.duration ∨ f.afterBytes.isSome ∨
        f.afterDuration.isSome ∨ f.direction ≠ "" ∨ f.maxDuration.isSome ∨ f.bytesPerSecond.isSome)
      (path ++ ".fault") "delay_connect requires on_connect and positive duration only"
  else if f.action = "close_connection" then
    reject (f.phase ≠ tcpOnTransfer ∨ f.direction ≠ "" ∨ f.duration.isSome ∨ f.maxDuration.isSome ∨
        f.bytesPerSecond.isSome)
      (path ++ ".fault") "close_connection requires on_transfer and a valid trigger"
  else if f.action = "hold" then
    reject (f.phase ≠ tcpOnTransfer ∨ ¬ tcpDirection f.direction ∨ notPositive f.maxDuration ∨
        f.duration.isSome ∨ f.bytesPerSecond.isSome)
      (path ++ ".fault") "hold requires on_transfer, direction and positive max_duration"
  else if f.action = "throttle" then
    reject (f.phase ≠ tcpOnTransfer ∨ ¬ tcpDirection f.direction ∨ notPositive f.bytesPerSecond ∨
        f.duration.isSome ∨ f.maxDuration.isSome)
      (path ++ ".fault") "throttle requires on_transfer, direction and positive bytes_per_second"
  else invalid (path ++ ".fault.action") "unsupported tcp action"

/-- A tcp rule keeps its header map as it was decoded, nil or empty. -/
def validateTCPRule (r : Rule) (path : String) : Except FieldError Rule := do
  let f := r.fault
  reject (¬ emptyMatcher r.matcher) (path ++ ".match") "tcp requires an empty matcher"
  let select ← validateSelector r.select path
  reject (f.status.isSome ∨ f.body.isSome ∨ f.bytes.isSome) (path ++ ".fault")
    "HTTP fields are unsupported for tcp"
  reject (f.afterBytes.isSome ∧ f.afterDuration.isSome) (path ++ ".fault") "choose one trigger"
  reject (f.afterBytes.any (· < 0)) (path ++ ".fault.after_bytes") "must be nonnegative"
  reject (f.afterBytes.isSome ∧ ¬ tcpDirection f.triggerDirection)
    (path ++ ".fault.trigger_direction") "byte trigger requires a direction"
  reject (f.afterBytes = none ∧ f.triggerDirection ≠ "") (path ++ ".fault.trigger_direction")
    "requires after_bytes"
  reject (f.afterDuration.any (· ≤ 0)) (path ++ ".fault.after_duration") "must be positive"
  validateTCPAction f path
  return { r with select := select }

/-- A database rule is checked as an HTTP rule of a copy with the phase replaced;
the copy shares the probability pointer, and its header map is taken over. -/
def validateCommitRule (r : Rule) (path : String) : Except FieldError Rule := do
  reject (¬ emptyMatcher r.matcher) (path ++ ".match") "database protocol requires an empty matcher"
  reject (r.fault.phase ≠ afterCommit) (path ++ ".fault.phase")
    "database protocol requires after_commit"
  let checked ← validateRule { r with fault := { r.fault with phase := afterUpstreamHeaders } } path
  return { r with
    matcher := { r.matcher with headers := checked.matcher.headers }
    select := checked.select }

/-- The body of the rule loop of `validate`. -/
def validateProxyRule (protocol : String) (r : Rule) (path : String) : Except FieldError Rule := do
  reject (¬ identifier r.id) (path ++ ".id") "expected a nonempty identifier"
  reject (protocol ≠ "grpc" ∧ r.matcher.service ≠ "") (path ++ ".match.service") "requires grpc"
  reject (r.matcher.service ≠ "" ∧ ¬ identifier r.matcher.service) (path ++ ".match.service")
    "invalid service name"
  reject (r.fault.action ∉ actions protocol) (path ++ ".fault.action")
    "unsupported capability for protocol"
  if isDatabase protocol then validateCommitRule r path
  else if protocol = "tcp" then validateTCPRule r path
  else validateRule r path

def elementPath (path : String) (i : ℕ) : String := path ++ "[" ++ String.ofList (itoa i) ++ "]"

def validateRules (protocol path : String) : ℕ → List Rule → Except FieldError (List Rule)
  | _, [] => .ok []
  | j, r :: rest => do
    let r ← validateProxyRule protocol r (elementPath (path ++ ".rules") j)
    let rest ← validateRules protocol path (j+1) rest
    return r :: rest

end Faultline
