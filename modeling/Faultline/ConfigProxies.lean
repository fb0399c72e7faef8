import Faultline.ConfigTLS

/-! Addresses of a proxy and the validation of a whole configuration. -/
namespace Faultline

def validPort (n : ℤ) : Bool := 1 ≤ n && n ≤ 65535

def validateListen (path listen : String) : Except FieldError String :=
  match splitHostPort listen.toList with
  | none => invalid (path ++ ".listen") "expected host:port with port 1–65535"
  | some (host, port) =>
    match atoi port with
    | none => invalid (path ++ ".listen") "expected host:port with port 1–65535"
    | some number => do
      reject (¬ validPort number ∨ host ≠ [] ∧ ¬ hostname host) (path ++ ".listen")
        "expected host:port with port 1–65535"
      let host := if host = [] then "127.0.0.1".toList else host
      return String.ofList (joinHostPort (lower host) (itoa number))

def validateTCPUpstream (path upstream listen : String) : Except FieldError String :=
  match parseURL upstream.toList with
  | none => invalid (path ++ ".upstream") "expected tcp://host:port without credentials or path"
  | some u => do
    reject (u.scheme ≠ "tcp".toList ∨ u.user ∨ u.opaquePart ≠ [] ∨ u.path ≠ [] ∨ u.rawQuery ≠ [] ∨
        u.forceQuery ∨ u.fragment ≠ [] ∨ ¬ hostname u.hostname ∨ u.port = [])
      (path ++ ".upstream") "expected tcp://host:port without credentials or path"
    match atoi u.port with
    | none => invalid (path ++ ".upstream") "invalid port"
    | some n =>
      reject (¬ validPort n) (path ++ ".upstream") "invalid port"
      let upstream := "tcp://" ++ String.ofList (joinHostPort (lower u.hostname) (itoa n))
      reject (upstream = "tcp://" ++ listen) (path ++ ".upstream") "upstream cannot equal listener"
      return upstream

/-- The port of an origin in its shortest form: a database gets its default port,
and the default port of an HTTP scheme is left out. -/
def originPort (protocol : String) (u : URL) (path : String) : Except FieldError (List Char) :=
  let endsColon := u.host.getLast? = some ':'
  let port := if isDatabase protocol ∧ u.port = [] ∧ ¬ endsColon then
      (if protocol = "mysql" then "3306".toList else "5432".toList) else u.port
  if port ≠ [] then
    match atoi port with
    | none => invalid (path ++ ".upstream") "invalid port"
    | some n => do
      reject (¬ validPort n) (path ++ ".upstream") "invalid port"
      if itoa n = "80".toList ∧ u.scheme = "http".toList ∨
          itoa n = "443".toList ∧ u.scheme = "https".toList then
        return []
      else return itoa n
  else do
    reject endsColon (path ++ ".upstream") "invalid port"
    return []

def originHost (host port : List Char) : List Char :=
  if port ≠ [] then joinHostPort host port
  else if ':' ∈ host then '[' :: host ++ [']'] else host

def originScheme (protocol : String) : String :=
  if isDatabase protocol then protocol ++ "(s)" else "HTTP(S)"

def originMessage (protocol : String) : String :=
  "expected a " ++ originScheme protocol ++
    " origin without credentials, path, query or fragment"

def validateOrigin (path protocol upstream : String) : Except FieldError String :=
  match parseURL upstream.toList with
  | none => invalid (path ++ ".upstream") (originMessage protocol)
  | some u => do
    reject (¬ validUpstreamScheme protocol u.scheme ∨ u.user ∨ ¬ hostname u.hostname ∨
        u.opaquePart ≠ [] ∨ (u.path ≠ [] ∧ u.path ≠ ['/']) ∨ u.rawQuery ≠ [] ∨ u.forceQuery ∨
        '#' ∈ upstream.toList)
      (path ++ ".upstream") (originMessage protocol)
    let port ← originPort protocol u path
    return String.ofList (u.scheme ++ "://".toList ++ originHost (lower u.hostname) port)

def knownProtocols : List String := ["http1", "http2", "grpc", "postgresql", "mysql", "tcp"]

def defaultUpstreamProtocol (protocol upstreamProtocol : String) : String :=
  if upstreamProtocol = "" then (if protocol = "grpc" then "http2" else protocol)
  else upstreamProtocol

def validateProtocols (path id protocol upstreamProtocol : String) : Except FieldError Unit := do
  reject (¬ identifier id) (path ++ ".id") "expected a nonempty identifier"
  reject (protocol ∉ knownProtocols) (path ++ ".protocol")
    "expected http1, http2, grpc, postgresql, mysql or tcp"
  let upstream := defaultUpstreamProtocol protocol upstreamProtocol
  let raw := isDatabase protocol || protocol = "tcp"
  reject (raw ∧ upstream ≠ protocol) (path ++ ".upstream_protocol")
    "upstream protocol must match listener"
  reject (¬ raw ∧ (upstream ≠ "http1" ∧ upstream ≠ "http2" ∨ protocol = "grpc" ∧ upstream ≠ "http2"))
    (path ++ ".upstream_protocol") "expected http1 or http2; grpc requires http2"

def validateUpstream (lib : Library) (host : Host) (base path : String) (p : Proxy)
    (digests : Digests) : Except FieldError (Proxy × Digests) :=
  if p.protocol = "tcp" then do
    let upstream ← validateTCPUpstream path p.upstream p.listen
    reject (p.tls.isSome ∨ p.upstreamTLS.isSome) (path ++ ".tls")
      "tcp passthrough does not terminate TLS"
    return ({ p with upstream := upstream }, digests)
  else do
    let upstream ← validateOrigin path p.protocol p.upstream
    validateTLS lib host base path { p with upstream := upstream } digests

/-- The body of the proxy loop of `validate`. -/
def validateProxy (lib : Library) (host : Host) (base path : String) (listeners : List String)
    (digests : Digests) (p : Proxy) : Except FieldError (Proxy × Digests) := do
  validateProtocols path p.id p.protocol p.upstreamProtocol
  let listen ← validateListen path p.listen
  reject (listen ∈ listeners) (path ++ ".listen") "duplicate listener"
  let (p, digests) ← validateUpstream lib host base path
    { p with
      upstreamProtocol := defaultUpstreamProtocol p.protocol p.upstreamProtocol
      listen := listen } digests
  let rules ← validateRules p.protocol path 0 p.ruleList
  return ({ p with rules := some rules }, digests)

def validateProxies (lib : Library) (host : Host) (base : String) :
    ℕ → List String → Digests → List Proxy → Except FieldError (List Proxy × Digests)
  | _, _, digests, [] => .ok ([], digests)
  | i, listeners, digests, p :: rest => do
    let (p, digests) ← validateProxy lib host base (elementPath "proxies" i) listeners digests p
    let (rest, digests) ← validateProxies lib host base (i+1) (p.listen :: listeners) digests rest
    return (p :: rest, digests)

def validate (lib : Library) (host : Host) (c : Config) (base : String) :
    Except FieldError (Config × Digests) := do
  reject (c.apiVersion ≠ apiVersion) "api_version" "unsupported or missing version"
  reject (c.runtime.maxInflightRequests ≤ 0) "runtime.max_inflight_requests" "must be positive"
  reject (c.runtime.requestTimeout ≤ 0) "runtime.request_timeout" "must be positive"
  reject (c.proxies = []) "proxies" "at least one proxy is required"
  let (proxies, digests) ← validateProxies lib host base 0 [] ∅ c.proxies
  return ({ c with proxies := proxies }, digests)

end Faultline
