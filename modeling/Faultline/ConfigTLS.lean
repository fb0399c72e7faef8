import Faultline.ConfigValidate

/-! The TLS files of a proxy: their names are made absolute and clean, they are
read, hashed and checked. -/
namespace Faultline

/-- The encodings of the characters that `unicode.IsSpace` accepts. -/
def spaces : List Bytes :=
  [[9], [10], [11], [12], [13], [32], [0xC2, 0x85], [0xC2, 0xA0], [0xE1, 0x9A, 0x80],
    [0xE2, 0x80, 0x80], [0xE2, 0x80, 0x81], [0xE2, 0x80, 0x82], [0xE2, 0x80, 0x83],
    [0xE2, 0x80, 0x84], [0xE2, 0x80, 0x85], [0xE2, 0x80, 0x86], [0xE2, 0x80, 0x87],
    [0xE2, 0x80, 0x88], [0xE2, 0x80, 0x89], [0xE2, 0x80, 0x8A], [0xE2, 0x80, 0xA8],
    [0xE2, 0x80, 0xA9], [0xE2, 0x80, 0xAF], [0xE2, 0x81, 0x9F], [0xE3, 0x80, 0x80]]

/-- Drops leading words; the fuel is the length of the text, which every word shortens. -/
def trimWords (words : List Bytes) : ℕ → Bytes → Bytes
  | 0, s => s
  | k+1, s =>
    match words.find? (fun w => w.isPrefixOf s) with
    | none => s
    | some w => trimWords words k (s.drop w.length)

def trimSpace (s : Bytes) : Bytes :=
  let left := trimWords spaces s.length s
  (trimWords (spaces.map List.reverse) left.length left.reverse).reverse

theorem length_trimWords (words : List Bytes) (k : ℕ) (s : Bytes) :
    (trimWords words k s).length ≤ s.length := by
  induction k generalizing s with
  | zero => exact le_rfl
  | succ k ih =>
    unfold trimWords
    split
    · exact le_rfl
    · exact (ih _).trans (by simp)

theorem length_trimSpace (s : Bytes) : (trimSpace s).length ≤ s.length := by
  have hright := length_trimWords (spaces.map List.reverse) (trimWords spaces s.length s).length
    (trimWords spaces s.length s).reverse
  rw [List.length_reverse] at hright
  simp only [trimSpace, List.length_reverse]
  exact hright.trans (length_trimWords spaces s.length s)

/-- The certificate loop of `validateCA`: the number of certificates in the file. -/
def countCertificates (lib : Library) (field : String) (count : ℕ) (data : Bytes) :
    Except FieldError ℕ :=
  if data = [] then .ok count
  else match hblock : lib.pemDecode data with
  | none => invalid field "expected PEM certificates"
  | some block =>
    if block.type ≠ "CERTIFICATE" then invalid field "expected PEM certificates"
    else if !lib.parseCertificate block.bytes then invalid field "invalid CA certificate"
    else countCertificates lib field (count+1) (trimSpace block.rest)
termination_by data.length
decreasing_by
  have hshort := lib.pemDecode_rest data block hblock
  have htrim := length_trimSpace block.rest
  omega

/-- The name under which `validateTLS` reads a file. -/
def tlsFileName (base name : String) : String :=
  String.ofList (clean (if isAbs name.toList then name.toList else joinPath base.toList name.toList))

/-- The `read` closure of `validateTLS`: the final name, the contents and the
digests with this file added. -/
def readTLS (lib : Library) (host : Host) (base name field : String) (digests : Digests) :
    Except FieldError (String × Bytes × Digests) := do
  reject (name = "") field "file is required"
  match host.readFile (tlsFileName base name) with
  | none => invalid field "cannot read file"
  | some data => return (tlsFileName base name, data,
      digests.insert (tlsFileName base name) (lib.sha256 data))

def readKeyPair (lib : Library) (host : Host) (base cert key path : String) (digests : Digests) :
    Except FieldError (String × String × Digests) := do
  let (cert, certData, digests) ← readTLS lib host base cert (path ++ ".cert_file") digests
  let (key, keyData, digests) ← readTLS lib host base key (path ++ ".key_file") digests
  reject (lib.x509KeyPair certData keyData = false) path "invalid or mismatched certificate/key"
  return (cert, key, digests)

def validateCA (lib : Library) (host : Host) (base name field : String) (digests : Digests) :
    Except FieldError (String × Digests) := do
  let (name, data, digests) ← readTLS lib host base name field digests
  let count ← countCertificates lib field 0 data
  reject (count = 0) field "expected PEM certificates"
  return (name, digests)

def validateOptionalCA (lib : Library) (host : Host) (base name field : String) (digests : Digests) :
    Except FieldError (String × Digests) :=
  if name = "" then .ok (name, digests) else validateCA lib host base name field digests

def validateListenerTLS (lib : Library) (host : Host) (base path : String) (t : Option ListenerTLS)
    (digests : Digests) : Except FieldError (Option ListenerTLS × Digests) :=
  match t with
  | none => .ok (none, digests)
  | some t => do
    let (cert, key, digests) ←
      readKeyPair lib host base t.certFile t.keyFile (path ++ ".tls") digests
    let (ca, digests) ←
      validateOptionalCA lib host base t.clientCAFile (path ++ ".tls.client_ca_file") digests
    return (some ⟨cert, key, ca⟩, digests)

def hasPrefix (s pre : String) : Bool := pre.toList.isPrefixOf s.toList

def validateUpstreamTLS (lib : Library) (host : Host) (base path upstream : String)
    (t : Option UpstreamTLS) (digests : Digests) :
    Except FieldError (Option UpstreamTLS × Digests) :=
  match t with
  | none => .ok (none, digests)
  | some t => do
    reject (¬ hasPrefix upstream "https://" ∧ ¬ hasPrefix upstream "postgresqls://" ∧
        ¬ hasPrefix upstream "mysqls://")
      (path ++ ".upstream_tls") "requires a TLS upstream"
    reject (t.caFile = "" ∧ t.certFile = "" ∧ t.keyFile = "") (path ++ ".upstream_tls")
      "CA or client certificate/key is required"
    let (ca, digests) ←
      validateOptionalCA lib host base t.caFile (path ++ ".upstream_tls.ca_file") digests
    if t.certFile ≠ "" ∨ t.keyFile ≠ "" then
      let (cert, key, digests) ←
        readKeyPair lib host base t.certFile t.keyFile (path ++ ".upstream_tls") digests
      return (some ⟨ca, cert, key⟩, digests)
    else return (some ⟨ca, t.certFile, t.keyFile⟩, digests)

/-- `validateTLS` on a proxy whose upstream is normalized. -/
def validateTLS (lib : Library) (host : Host) (base path : String) (p : Proxy) (digests : Digests) :
    Except FieldError (Proxy × Digests) := do
  reject (isDatabase p.protocol ∧ (p.tls.any (fun t => t.clientCAFile ≠ "") ∨
      p.upstreamTLS.any (fun t => t.certFile ≠ "" || t.keyFile ≠ "")))
    (path ++ ".tls") "database mTLS is unsupported"
  reject (p.protocol = "mysql" ∧ p.tls.isSome ≠ hasPrefix p.upstream "mysqls://")
    (path ++ ".tls") "mysql requires both TLS legs or both plaintext legs"
  let (tls, digests) ← validateListenerTLS lib host base path p.tls digests
  let (upstreamTLS, digests) ← validateUpstreamTLS lib host base path p.upstream p.upstreamTLS digests
  return ({ p with tls := tls, upstreamTLS := upstreamTLS }, digests)

end Faultline
