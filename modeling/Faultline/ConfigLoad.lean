import Faultline.ConfigProxies
import Faultline.ConfigYaml

/-! `Parse` and `Load`: from files to a document. -/
namespace Faultline

inductive LoadError where
  | field (e : FieldError)
  | marshal
  deriving DecidableEq

structure ProxySource where
  file : String
  path : String

def proxySources (file : String) (count : ℕ) : List ProxySource :=
  (List.range count).map (fun i => ⟨file, elementPath "proxies" i⟩)

def FieldError.sourced (e : FieldError) (file : String) : FieldError := { e with file := file }

/-- `sourceError` on a result. -/
def sourceError {α : Type} (file : String) : Except FieldError α → Except LoadError α
  | .ok a => .ok a
  | .error e => .error (.field (e.sourced file))

def isAbsString (path : String) : Bool := isAbs path.toList

def joinString (a b : String) : String := String.ofList (joinPath a.toList b.toList)

def dirString (path : String) : String := String.ofList (dirPath path.toList)

/-- `filepath.Abs`. -/
def Host.abs (host : Host) (path : String) : Option String :=
  (absPath (host.getwd.map String.toList) path.toList).map String.ofList

/-- The `resolve` closure of `finish`. -/
def resolve (file path : String) : String :=
  if path ≠ "" ∧ ¬ isAbsString path then joinString (dirString file) path else path

def resolveTLS (file : String) (p : Proxy) : Proxy :=
  { p with
    tls := p.tls.map (fun t => ⟨resolve file t.certFile, resolve file t.keyFile,
      resolve file t.clientCAFile⟩)
    upstreamTLS := p.upstreamTLS.map (fun t => ⟨resolve file t.caFile, resolve file t.certFile,
      resolve file t.keyFile⟩) }

def ruleIDPath (src : ProxySource) (j : ℕ) : String := elementPath (src.path ++ ".rules") j ++ ".id"

/-- The rule ID loop of `finish`, with the IDs and indices of the rules before. -/
def uniqueRules (src : ProxySource) (j : ℕ) (seen : List (String × ℕ)) :
    List Rule → Except FieldError Unit
  | [] => .ok ()
  | r :: rest =>
    match seen.lookup r.id with
    | some previous => .error ⟨src.file, ruleIDPath src j,
        "duplicate rule ID; first declaration: " ++ src.file ++ ": " ++ ruleIDPath src previous⟩
    | none => uniqueRules src (j+1) ((r.id, j) :: seen) rest

/-- The proxy loop of `finish`: IDs are unique, and TLS paths are relative to the
file that declares the proxy. -/
def resolveProxies (seen : List (String × ProxySource)) :
    List (Proxy × ProxySource) → Except FieldError (List Proxy)
  | [] => .ok []
  | (p, src) :: rest =>
    match seen.lookup p.id with
    | some previous => .error ⟨src.file, src.path ++ ".id",
        "duplicate proxy ID; first declaration: " ++ previous.file ++ ": " ++ previous.path ++ ".id"⟩
    | none => do
      uniqueRules src 0 [] p.ruleList
      let rest ← resolveProxies ((p.id, src) :: seen) rest
      return resolveTLS src.file p :: rest

/-- A field path of the whole configuration as its source file has it. -/
def locateError (e : FieldError) (root : String) : ℕ → List ProxySource → FieldError
  | _, [] => e.sourced root
  | i, src :: rest =>
    let pre := (elementPath "proxies" i).toList
    if (pre ++ ['.']).isPrefixOf e.path.toList then
      ⟨src.file, src.path ++ String.ofList (e.path.toList.drop pre.length), e.message⟩
    else locateError e root (i+1) rest

def finish (lib : Library) (host : Host) (c : Config) (sources : List ProxySource) (root : String) :
    Except LoadError Document :=
  match resolveProxies [] (c.proxies.zip sources) with
  | .error e => .error (.field e)
  | .ok proxies =>
    match validate lib host { c with proxies := proxies } (dirString root) with
    | .error e => .error (.field (locateError e root 0 sources))
    | .ok (c, digests) =>
      match newDocument lib c digests with
      | none => .error .marshal
      | some d => .ok d

/-- `Parse` of a standalone document. -/
def parse (lib : Library) (y : Yaml) (host : Host) (data : Bytes) (filename : String) :
    Except LoadError Document :=
  if filename = "" then .error (.field ⟨"", "config", "filename is required for relative paths"⟩)
  else match host.abs filename with
  | none => .error (.field ⟨"", "config", "cannot resolve filename"⟩)
  | some absolute => do
    let c ← sourceError absolute (decodeDocument y (decodeConfig y) data Config.zero)
    finish lib host c (proxySources absolute c.proxies.length) absolute

/-- The files of `Load` so far: each with its identity, and the proxies they declare. -/
structure Included where
  seen : List (String × ℕ)
  proxies : List Proxy
  sources : List ProxySource

def includeError {α : Type} (file path message : String) : Except LoadError α :=
  .error (.field ⟨file, path, message⟩)

def includeFile (y : Yaml) (host : Host) (root field : String) (acc : Included) (file : String) :
    Except LoadError Included :=
  match host.stat file with
  | none => includeError root field ("expected a readable regular file: " ++ file)
  | some info =>
    if !info.regular then includeError root field ("expected a readable regular file: " ++ file)
    else match acc.seen.find? (fun s => s.2 = info.identity) with
    | some previous => includeError root field
        ("file included more than once: " ++ file ++ "; first source: " ++ previous.1)
    | none =>
      match host.readFile file with
      | none => includeError file "config" "cannot read file"
      | some data => do
        let proxies ← sourceError file (decodeDocument y (decodeFragment y) data [])
        if proxies = [] then
          includeError file "proxies" "fragment must contain at least one proxy"
        else return ⟨acc.seen ++ [(file, info.identity)], acc.proxies ++ proxies,
          acc.sources ++ proxySources file proxies.length⟩

def includeFiles (y : Yaml) (host : Host) (root field : String) (acc : Included) :
    List String → Except LoadError Included
  | [] => .ok acc
  | file :: rest => do
    let acc ← includeFile y host root field acc file
    includeFiles y host root field acc rest

def includePatterns (y : Yaml) (host : Host) (root : String) (acc : Included) :
    ℕ → List String → Except LoadError Included
  | _, [] => .ok acc
  | i, pattern :: rest =>
    let field := elementPath "include" i
    if pattern = "" then includeError root field "empty include path"
    else
      let pattern := if isAbsString pattern then pattern else joinString (dirString root) pattern
      match host.glob pattern with
      | none => includeError root field "invalid glob or no matching files"
      | some files =>
        if files = [] then includeError root field "invalid glob or no matching files"
        else do
          let acc ← includeFiles y host root field acc files
          includePatterns y host root acc (i+1) rest

def load (lib : Library) (y : Yaml) (host : Host) (filename : String) : Except LoadError Document :=
  if filename = "" then .error (.field ⟨"", "config", "filename is required"⟩)
  else match host.abs filename with
  | none => .error (.field ⟨"", "config", "cannot resolve filename"⟩)
  | some root =>
    match host.stat root with
    | none => includeError root "config" "expected a readable regular file"
    | some info =>
      if !info.regular then includeError root "config" "expected a readable regular file"
      else match host.readFile root with
      | none => includeError root "config" "cannot read file"
      | some data => do
        let raw ← sourceError root (decodeDocument y (decodeRoot y) data ⟨Config.zero, []⟩)
        let acc ← includePatterns y host root
          ⟨[(root, info.identity)], raw.config.proxies, proxySources root raw.config.proxies.length⟩
          0 raw.includes
        finish lib host { raw.config with proxies := acc.proxies } acc.sources root

end Faultline
