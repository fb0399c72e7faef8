import Faultline.Draft
import Faultline.Store

/-! The managed server: accounts, sessions and the handler of its requests. Requests are served one
at a time, under the lock of the server. -/
namespace Faultline
namespace Managed

/-! Accounts. -/

structure User where
  role : String
  salt : String
  hash : String
  deriving DecidableEq

structure Session where
  name : String
  role : String
  hash : String
  csrf : String
  expires : ℕ
  deriving DecidableEq

structure Credentials where
  name : String
  password : String

/-- The body of a request: what can be read of it, and whether the end is reached without an
error. -/
structure Body where
  data : Bytes
  ended : Bool

/-- `http.MaxBytesReader`. -/
def Body.limit (n : ℕ) (b : Body) : Body :=
  if n < b.data.length then ⟨b.data.take n, false⟩ else b

/-- What the server calls without looking inside: the JSON decoder on its two request types, with
unknown fields refused, and the key derivation. A decoder hands back the rest of the body. -/
structure Web where
  draft : Body → Option (Draft × Body)
  credentials : Body → Option (Credentials × Body)
  eof : Body → Bool
  pbkdf2 : String → Bytes → Bytes

def hexDigit (c : Char) : Option ℕ :=
  if '0' ≤ c ∧ c ≤ '9' then some (c.toNat - '0'.toNat)
  else if 'a' ≤ c ∧ c ≤ 'f' then some (c.toNat - 'a'.toNat + 10)
  else if 'A' ≤ c ∧ c ≤ 'F' then some (c.toNat - 'A'.toNat + 10)
  else none

/-- `hex.DecodeString`. -/
def hexDecode : List Char → Option Bytes
  | [] => some []
  | [_] => none
  | a :: b :: rest => do
    let high ← hexDigit a
    let low ← hexDigit b
    let bytes ← hexDecode rest
    return UInt8.ofNat (high*16 + low) :: bytes

/-- `hex.EncodeToString`. -/
def hexEncode (data : Bytes) : String :=
  String.ofList (data.flatMap (fun b => [Nat.digitChar (b.toNat/16), Nat.digitChar (b.toNat%16)]))

def passwordHash (web : Web) (password : String) (salt : Bytes) : String :=
  hexEncode (web.pbkdf2 password salt)

/-- The salt of an account; one that cannot be used stands for sixteen zeros. -/
def User.saltBytes (u : User) : Bytes :=
  match hexDecode u.salt.toList with
  | some salt => if salt.length = 16 then salt else List.replicate 16 0
  | none => List.replicate 16 0

def verifyPassword (web : Web) (u : User) (password : String) : Bool :=
  passwordHash web password u.saltBytes = u.hash && (u.role = "viewer" || u.role = "editor")

/-! Requests and responses. -/

structure Request where
  tls : Bool
  method : String
  host : String
  path : String
  origin : String
  cookie : Option String
  csrf : String
  contentType : String
  body : Body

structure Write where
  time : ℕ
  out : WriteOutcome

/-- What the handler meets while it serves one request: the time, the files, the accounts that
`readUsers` returns (none is an error), its first and its second save, the time of the change and
two random texts. -/
structure Moment where
  now : ℕ
  host : Host
  users : Option (OrdMap String User)
  first : Write
  second : Write
  changed : ℕ
  token : String
  csrf : String

structure ProxyView where
  id : String
  protocol : String
  listen : String
  upstream : String
  rules : Option (List Rule)

structure ConfigView where
  revision : ℕ
  proxies : List ProxyView
  lastApply : Option Result

/-- What a response carries. The contents of a file, of the status and of the capabilities are
left out. -/
inductive Reply where
  | problem (message : String)
  | identity (name role csrf : String)
  | ok
  | config (view : ConfigView)
  | status
  | audit (entries : List Audit)
  | capabilities
  | result (r : Result)
  | conflict (message : String) (active : ConfigView)
  | valid (baseRevision : ℕ)
  | asset (path : String)

def Reply.plain : Reply → Bool
  | .result _ => false
  | .valid _ => false
  | _ => true

structure Cookie where
  value : String
  maxAge : ℤ

structure Response where
  status : ℕ
  reply : Reply
  cookie : Option Cookie := none
  retryAfter : Option String := none

def problem (status : ℕ) (message : String) : Response := { status := status, reply := .problem message }

/-- `FieldError.Error`. -/
def fieldErrorText (e : FieldError) : String :=
  if e.file ≠ "" then e.file ++ ": " ++ e.path ++ ": " ++ e.message else e.path ++ ": " ++ e.message

def DraftError.message : DraftError → String
  | .incomplete => "proxies: all existing proxies are required"
  | .duplicate => "proxies: duplicate proxy"
  | .unknown => "proxies: unknown proxy"
  | .config (.field e) => fieldErrorText e
  -- the encoder's own text: validated values can all be printed
  | .config .marshal => "json: unsupported value"

/-- `decode` of a body into a value of one of the request types. -/
def decode {α : Type} (web : Web) (read : Body → Option (α × Body)) (r : Request) : Except String α :=
  if r.contentType ≠ "application/json" then .error "Content-Type must be application/json"
  else match read (r.body.limit 1048576) with
  | none => .error "invalid JSON request or unknown field"
  | some (value, rest) => if web.eof rest then .ok value else .error "expected one JSON object"

inductive Operation where
  | login
  | logout
  | apply
  | validate
  | enable
  | disable
  | unknown
  deriving DecidableEq

def Operation.name : Operation → String
  | .login => "login"
  | .logout => "logout"
  | .apply => "apply"
  | .validate => "validate"
  | .enable => "enable"
  | .disable => "disable"
  | .unknown => "unknown"

def operation (path : String) : Operation :=
  if path = "/api/login" then .login
  else if path = "/api/logout" then .logout
  else if path = "/api/apply" then .apply
  else if path = "/api/validate" then .validate
  else if path = "/api/enable" then .enable
  else if path = "/api/disable" then .disable
  else .unknown

/-! The handler. -/

structure Server where
  store : Store
  service : Service
  sessions : OrdMap String Session
  loginWindow : ℕ
  loginCount : ℕ

def Server.withStore (s : Server) (store : Store) : Server := { s with store := store }

def Server.withSessions (s : Server) (sessions : OrdMap String Session) : Server :=
  { s with sessions := sessions }

/-- `Server.audit`: the response to a failed save, and the server. -/
def Server.audit (w : Write) (actor operation outcome : String) (s : Server) : Option Response × Server :=
  match s.store.audit w.time w.out actor operation outcome s.service.active.info.revision with
  | (none, store) => (none, s.withStore store)
  | (some _, store) =>
    (some (problem 503 "audit storage unavailable; no operation performed"), s.withStore store)

def Server.audited (w : Write) (actor operation outcome : String) (answer : Response) (s : Server) :
    Response × Server :=
  match s.audit w actor operation outcome with
  | (some failed, s) => (failed, s)
  | (none, s) => (answer, s)

def Server.configView (s : Server) : ConfigView where
  revision := s.service.active.info.revision
  proxies := s.service.document.config.proxies.map
    (fun p => ⟨p.id, p.protocol, p.listen, p.upstream, p.rules⟩)
  lastApply := s.store.state.lastApply

def minute : ℕ := 60000000000

def sessionTime : ℕ := 28800000000000

/-- The account of a name in the users file; an unknown one is the zero value. -/
def Moment.account (m : Moment) (name : String) : User :=
  ((m.users.getD ∅).get? name).getD ⟨"", "", ""⟩

def Server.forget (r : Request) (s : Server) : Server :=
  match r.cookie with
  | some key => s.withSessions (s.sessions.erase key)
  | none => s

/-- `login` from the checked credentials on. -/
def Server.openSession (web : Web) (r : Request) (m : Moment) (credentials : Credentials) (s : Server) :
    Response × Server :=
  let u := m.account credentials.name
  if m.users.isNone || !verifyPassword web u credentials.password then
    s.audited m.first "anonymous" "login" "rejected" (problem 401 "invalid username or password")
  else if 256 ≤ s.sessions.size then (problem 503 "session limit reached", s)
  else
    match s.audit m.first credentials.name "login" "ok" with
    | (some failed, s) => (failed, s)
    | (none, s) =>
      let sess : Session := ⟨credentials.name, u.role, u.hash, m.csrf, m.now + sessionTime⟩
      ({ status := 200, reply := .identity sess.name sess.role sess.csrf, cookie := some ⟨m.token, 28800⟩ },
        s.withSessions ((s.forget r).sessions.insert m.token sess))

def Server.startWindow (now : ℕ) (s : Server) : Server :=
  if minute ≤ now - s.loginWindow then { s with loginWindow := now, loginCount := 0 } else s

def Server.countLogin (s : Server) : Server := { s with loginCount := s.loginCount + 1 }

def Server.login (web : Web) (r : Request) (m : Moment) (s : Server) : Response × Server :=
  let s := s.startWindow m.now
  if 20 ≤ s.loginCount then
    ({ problem 429 "login rate limit; retry in one minute" with retryAfter := some "60" }, s)
  else
    let s := s.countLogin
    match decode web web.credentials r with
    | .error _ => (problem 400 "invalid login request", s)
    | .ok credentials =>
      if 1024 < credentials.password.utf8ByteSize then (problem 400 "invalid login request", s)
      else s.openSession web r m credentials

section Handler
variable (lib : Library) (y : Yaml) (web : Web) (r : Request) (m : Moment)

def persist (actor : String) : Persist Store :=
  some (fun d result store => store.apply y m.first.time m.first.out actor d result)

def Server.serveApply (sess : Session) (draft : Draft) (d : Document) (s : Server) : Response × Server :=
  match s.service.applyRevision lib (persist y m sess.name) s.store (some d) draft.baseRevision m.changed with
  | (.ok result, service, store) =>
    ({ status := 200, reply := .result result },
      { s with
        service := service
        store := if result.changed then store.note (.published result.info.revision) else store })
  | (.error e, service, store) =>
    let s := { s with service := service, store := store }
    let failed :=
      if e = .conflict then problem 409 "config revision conflict"
      else problem 503 "apply failed; refresh active revision before retrying"
    if store.poisoned then (failed, s) else s.audited m.second sess.name "apply" "failed" failed

def Server.toggle (sess : Session) (op : Operation) (s : Server) : Response × Server :=
  match s.audit m.first sess.name op.name "ok" with
  | (some failed, s) => (failed, s)
  | (none, s) =>
    let (result, service) := s.service.setEnabled (op = .enable) m.changed
    ({ status := 200, reply := .result result },
      { s with
        service := service
        store := if result.changed then s.store.note (.enabled (op = .enable)) else s.store })

/-- A draft that was decoded, for `apply` and `validate`. -/
def Server.serveDraft (sess : Session) (op : Operation) (draft : Draft) (s : Server) : Response × Server :=
  if draft.baseRevision ≠ s.service.active.info.revision then
    s.audited m.first sess.name op.name "conflict"
      { status := 409
        reply := .conflict "Config changed. Compare your draft with the latest active revision." s.configView }
  else match document lib y m.host s.store.dir s.service.document.config draft with
  | .error e => s.audited m.first sess.name op.name "invalid_config" (problem 422 e.message)
  | .ok d =>
    if op = .validate then
      s.audited m.first sess.name op.name "ok" { status := 200, reply := .valid draft.baseRevision }
    else s.serveApply lib y m sess draft d

def Server.serveOperation (sess : Session) (s : Server) : Response × Server :=
  let op := operation r.path
  if r.method ≠ "POST" ∨ op = .unknown then (problem 404 "unknown API operation", s)
  else if sess.role ≠ "editor" then
    s.audited m.first sess.name op.name "forbidden" (problem 403 "editor role required")
  else if op = .enable ∨ op = .disable then s.toggle m sess op
  else if op ≠ .apply ∧ op ≠ .validate then (problem 404 "unknown API operation", s)
  else match decode web web.draft r with
  | .error message => s.audited m.first sess.name op.name "invalid_request" (problem 400 message)
  | .ok draft => s.serveDraft lib y m sess op draft

def Server.view (path : String) (s : Server) : Option Reply :=
  if path = "/api/config" then some (.config s.configView)
  else if path = "/api/status" then some .status
  else if path = "/api/audit" then some (.audit s.store.state.audit)
  else if path = "/api/capabilities" then some .capabilities
  else none

def Server.serveSession (sess : Session) (s : Server) : Response × Server :=
  if r.method = "POST" ∧ r.csrf ≠ sess.csrf then
    s.audited m.first sess.name (operation r.path).name "csrf_rejected" (problem 403 "CSRF token required")
  else if r.path = "/api/session" ∧ r.method = "GET" then
    ({ status := 200, reply := .identity sess.name sess.role sess.csrf }, s)
  else if r.path = "/api/logout" ∧ r.method = "POST" then
    match s.audit m.first sess.name "logout" "ok" with
    | (some failed, s) => (failed, s)
    | (none, s) =>
      ({ status := 200, reply := .ok, cookie := some ⟨"", -1⟩ },
        s.withSessions (s.sessions.erase (r.cookie.getD "")))
  else match if r.method = "GET" then s.view r.path else none with
  | some reply => ({ status := 200, reply := reply }, s)
  | none => s.serveOperation lib y web r m sess

/-- The session of a request whose account still has the hash and the role it had at the login. -/
def Server.session (s : Server) : Option Session :=
  let sess := (r.cookie.bind s.sessions.get?).getD ⟨"", "", "", "", 0⟩
  match m.users.bind (fun users => users.get? sess.name) with
  | none => none
  | some u => if sess.name = "" ∨ u.hash ≠ sess.hash ∨ u.role ≠ sess.role then none else some sess

def Server.refuse (s : Server) : Response × Server :=
  let s := s.forget r
  if r.method ≠ "GET" then
    s.audited m.first "anonymous" (operation r.path).name "unauthorized" (problem 401 "login required")
  else (problem 401 "login required", s)

def Server.expire (now : ℕ) (s : Server) : Server :=
  s.withSessions (s.sessions.entries.foldl
    (fun sessions e => if now < e.2.expires then sessions else sessions.erase e.1) s.sessions)

def isAsset (path : String) : Bool :=
  path = "/" || path = "/app.js" || path = "/diff.js" || path = "/style.css" || path = "/favicon.svg"

def serveHTTP (s : Server) : Response × Server :=
  if r.tls = false then (problem 400 "HTTPS required", s)
  else if r.method ≠ "GET" ∧ r.origin ≠ "" ∧ r.origin ≠ "https://" ++ r.host then
    (problem 403 "cross-origin request rejected", s)
  else if isAsset r.path then
    if r.method ≠ "GET" then (problem 405 "GET required", s) else ({ status := 200, reply := .asset r.path }, s)
  else if s.store.poisoned then (problem 503 "storage commit uncertain; restart required", s)
  else
    let s := s.expire m.now
    if r.path = "/api/login" ∧ r.method = "POST" then s.login web r m
    else match s.session r m with
    | none => s.refuse r m
    | some sess => s.serveSession lib y web r m sess

end Handler

/-! What a request does to the service and to the store. -/

/-- The request is a POST of an editor: its session is known, has not run out and belongs to an
account that has not changed, and the request carries the session's token. -/
structure Admitted (r : Request) (m : Moment) (s : Server) (op : Operation) (sess : Session) : Prop where
  tls : r.tls = true
  origin : r.origin = "" ∨ r.origin = "https://" ++ r.host
  post : r.method = "POST"
  operation : Managed.operation r.path = op
  awake : s.store.poisoned = false
  session : ∃ key, r.cookie = some key ∧ s.sessions.get? key = some sess
  unexpired : m.now < sess.expires
  account : ∃ users u, m.users = some users ∧ users.get? sess.name = some u ∧ u.hash = sess.hash ∧
    u.role = sess.role
  named : sess.name ≠ ""
  csrf : r.csrf = sess.csrf
  editor : sess.role = "editor"

def Store.noteIf (changed : Bool) (e : Effect) (s : Store) : Store := if changed then s.note e else s

/-- The answer, the service and the store after a request: nothing was saved, an entry was added to
the audit log, or an editor had a draft checked, toggled the service or applied a document. -/
inductive Handled (lib : Library) (y : Yaml) (web : Web) (r : Request) (m : Moment)
    (Admits : Operation → Session → Prop) (service : Service) (store : Store) :
    Response → Service → Store → Prop where
  | kept (answer : Response) (hreply : answer.reply.plain = true) :
      Handled lib y web r m Admits service store answer service store
  | audited (actor operation outcome : String) (answer : Response) (hreply : answer.reply.plain = true) :
      Handled lib y web r m Admits service store answer service
        (store.audit m.first.time m.first.out actor operation outcome service.active.info.revision).2
  | validated (sess : Session) (draft : Draft) (d : Document) (hadmits : Admits .validate sess)
      (hdraft : decode web web.draft r = .ok draft)
      (hbase : draft.baseRevision = service.active.info.revision)
      (hdoc : document lib y m.host store.dir service.document.config draft = .ok d) :
      Handled lib y web r m Admits service store { status := 200, reply := .valid draft.baseRevision } service
        (store.audit m.first.time m.first.out sess.name "validate" "ok" service.active.info.revision).2
  | toggled (op : Operation) (sess : Session) (store' : Store) (hadmits : Admits op sess)
      (hop : op = .enable ∨ op = .disable)
      (hsaved : store.audit m.first.time m.first.out sess.name op.name "ok" service.active.info.revision =
        (none, store')) :
      Handled lib y web r m Admits service store
        { status := 200, reply := .result (service.setEnabled (op = .enable) m.changed).1 }
        (service.setEnabled (op = .enable) m.changed).2
        (store'.noteIf (service.setEnabled (op = .enable) m.changed).1.changed (.enabled (op = .enable)))
  | applied (sess : Session) (draft : Draft) (d : Document) (result : Result) (service' : Service)
      (store' : Store) (hadmits : Admits .apply sess) (hdraft : decode web web.draft r = .ok draft)
      (hbase : draft.baseRevision = service.active.info.revision)
      (hdoc : document lib y m.host store.dir service.document.config draft = .ok d)
      (hrun : service.applyRevision lib (persist y m sess.name) store (some d) draft.baseRevision m.changed =
        (.ok result, service', store')) :
      Handled lib y web r m Admits service store { status := 200, reply := .result result } service'
        (store'.noteIf result.changed (.published result.info.revision))
  | uncertain (sess : Session) (draft : Draft) (d : Document) (e : ServiceError) (service' : Service)
      (store' : Store) (answer : Response) (hadmits : Admits .apply sess)
      (hdraft : decode web web.draft r = .ok draft)
      (hbase : draft.baseRevision = service.active.info.revision)
      (hdoc : document lib y m.host store.dir service.document.config draft = .ok d)
      (hrun : service.applyRevision lib (persist y m sess.name) store (some d) draft.baseRevision m.changed =
        (.error e, service', store'))
      (hreply : answer.reply.plain = true) (hpoisoned : store'.poisoned = true) :
      Handled lib y web r m Admits service store answer service' store'
  | failed (sess : Session) (draft : Draft) (d : Document) (e : ServiceError) (service' : Service)
      (store' : Store) (answer : Response) (hadmits : Admits .apply sess)
      (hdraft : decode web web.draft r = .ok draft)
      (hbase : draft.baseRevision = service.active.info.revision)
      (hdoc : document lib y m.host store.dir service.document.config draft = .ok d)
      (hrun : service.applyRevision lib (persist y m sess.name) store (some d) draft.baseRevision m.changed =
        (.error e, service', store'))
      (hreply : answer.reply.plain = true) (hpoisoned : store'.poisoned = false) :
      Handled lib y web r m Admits service store answer service'
        (store'.audit m.second.time m.second.out sess.name "apply" "failed" service'.active.info.revision).2

section Cases
variable {lib : Library} {y : Yaml} {web : Web} {r : Request} {m : Moment}
  {Admits : Operation → Session → Prop} {s : Server}

@[simp] theorem withStore_service (s : Server) (store : Store) : (s.withStore store).service = s.service := rfl

@[simp] theorem withStore_store (s : Server) (store : Store) : (s.withStore store).store = store := rfl

@[simp] theorem withStore_sessions (s : Server) (store : Store) : (s.withStore store).sessions = s.sessions := rfl

@[simp] theorem withSessions_service (s : Server) (sessions : OrdMap String Session) :
    (s.withSessions sessions).service = s.service := rfl

@[simp] theorem withSessions_store (s : Server) (sessions : OrdMap String Session) :
    (s.withSessions sessions).store = s.store := rfl

@[simp] theorem withSessions_sessions (s : Server) (sessions : OrdMap String Session) :
    (s.withSessions sessions).sessions = sessions := rfl

theorem audit_cases (w : Write) (actor operation outcome : String) (s : Server) :
    (∃ store, s.store.audit w.time w.out actor operation outcome s.service.active.info.revision =
        (none, store) ∧ s.audit w actor operation outcome = (none, s.withStore store)) ∨
      ∃ store, (s.store.audit w.time w.out actor operation outcome s.service.active.info.revision).2 = store ∧
        s.audit w actor operation outcome =
          (some (problem 503 "audit storage unavailable; no operation performed"), s.withStore store) := by
  unfold Server.audit
  cases h : s.store.audit w.time w.out actor operation outcome s.service.active.info.revision with
  | mk e store =>
    cases e with
    | none => exact Or.inl ⟨store, rfl, rfl⟩
    | some e => exact Or.inr ⟨store, rfl, rfl⟩

theorem audited_eq (w : Write) (actor operation outcome : String) (answer : Response) (s : Server) :
    ((s.audited w actor operation outcome answer).1 = answer ∨
        ∃ status message, (s.audited w actor operation outcome answer).1 = problem status message) ∧
      (s.audited w actor operation outcome answer).2 = s.withStore
        (s.store.audit w.time w.out actor operation outcome s.service.active.info.revision).2 := by
  unfold Server.audited
  rcases audit_cases w actor operation outcome s with ⟨store, hsave, haudit⟩ | ⟨store, rfl, haudit⟩
  · rw [haudit, hsave]
    exact ⟨Or.inl rfl, rfl⟩
  · rw [haudit]
    exact ⟨Or.inr ⟨_, _, rfl⟩, rfl⟩

theorem audited_plain (w : Write) (actor operation outcome : String) (answer : Response) (s : Server)
    (hreply : answer.reply.plain = true) :
    (s.audited w actor operation outcome answer).1.reply.plain = true := by
  rcases (audited_eq w actor operation outcome answer s).1 with h | ⟨status, message, h⟩
  · rw [h]
    exact hreply
  · rw [h]
    rfl

theorem handled_audited (actor operation outcome : String) (answer : Response) (s : Server)
    (hreply : answer.reply.plain = true) :
    Handled lib y web r m Admits s.service s.store (s.audited m.first actor operation outcome answer).1
      (s.audited m.first actor operation outcome answer).2.service
      (s.audited m.first actor operation outcome answer).2.store := by
  rw [(audited_eq m.first actor operation outcome answer s).2]
  exact .audited actor operation outcome _
    (audited_plain m.first actor operation outcome answer s hreply)

theorem handled_problem (status : ℕ) (message : String) (s : Server) :
    Handled lib y web r m Admits s.service s.store (problem status message) s.service s.store :=
  .kept _ rfl

theorem openSession_handled (credentials : Credentials) (s : Server) :
    Handled lib y web r m Admits s.service s.store (s.openSession web r m credentials).1
      (s.openSession web r m credentials).2.service (s.openSession web r m credentials).2.store := by
  unfold Server.openSession
  simp only
  split_ifs
  · exact handled_audited _ _ _ _ s rfl
  · exact handled_problem _ _ s
  · rcases audit_cases m.first credentials.name "login" "ok" s with ⟨store, hsave, haudit⟩ | ⟨store, hsave, haudit⟩
    · rw [haudit]
      have hstore : store = (s.store.audit m.first.time m.first.out credentials.name "login" "ok"
          s.service.active.info.revision).2 := by rw [hsave]
      subst hstore
      exact .audited _ _ _ _ rfl
    · rw [haudit, ← hsave]
      exact .audited _ _ _ _ rfl

theorem startWindow_service (now : ℕ) (s : Server) : (s.startWindow now).service = s.service := by
  unfold Server.startWindow
  split_ifs <;> rfl

theorem startWindow_store (now : ℕ) (s : Server) : (s.startWindow now).store = s.store := by
  unfold Server.startWindow
  split_ifs <;> rfl

theorem login_handled (s : Server) :
    Handled lib y web r m Admits s.service s.store (s.login web r m).1 (s.login web r m).2.service
      (s.login web r m).2.store := by
  rw [← startWindow_service m.now s, ← startWindow_store m.now s]
  unfold Server.login
  simp only
  split_ifs
  · exact .kept _ rfl
  · cases decode web web.credentials r with
    | error e => exact handled_problem _ _ (s.startWindow m.now).countLogin
    | ok credentials =>
      simp only
      split_ifs
      · exact handled_problem _ _ (s.startWindow m.now).countLogin
      · exact openSession_handled credentials (s.startWindow m.now).countLogin

theorem serveApply_handled (sess : Session) (draft : Draft) (d : Document) (s : Server)
    (hadmits : Admits .apply sess) (hdraft : decode web web.draft r = .ok draft)
    (hbase : draft.baseRevision = s.service.active.info.revision)
    (hdoc : document lib y m.host s.store.dir s.service.document.config draft = .ok d) :
    Handled lib y web r m Admits s.service s.store (s.serveApply lib y m sess draft d).1
      (s.serveApply lib y m sess draft d).2.service (s.serveApply lib y m sess draft d).2.store := by
  unfold Server.serveApply
  cases hrun : s.service.applyRevision lib (persist y m sess.name) s.store (some d) draft.baseRevision
      m.changed with
  | mk outcome rest =>
    obtain ⟨service, store⟩ := rest
    cases outcome with
    | ok result => exact .applied sess draft d result service store hadmits hdraft hbase hdoc hrun
    | error e =>
      simp only
      have hfailed : (if e = .conflict then problem 409 "config revision conflict"
          else problem 503 "apply failed; refresh active revision before retrying").reply.plain = true := by
        split_ifs <;> rfl
      by_cases hpoisoned : store.poisoned = true
      · rw [if_pos hpoisoned]
        exact .uncertain sess draft d e service store _ hadmits hdraft hbase hdoc hrun hfailed hpoisoned
      · rw [if_neg hpoisoned, (audited_eq _ _ _ _ _ _).2]
        exact .failed sess draft d e service store _ hadmits hdraft hbase hdoc hrun
          (audited_plain _ _ _ _ _ _ hfailed) (Bool.eq_false_iff.mpr hpoisoned)

theorem toggle_handled (sess : Session) (op : Operation) (s : Server) (hadmits : Admits op sess)
    (hop : op = .enable ∨ op = .disable) :
    Handled lib y web r m Admits s.service s.store (s.toggle m sess op).1 (s.toggle m sess op).2.service
      (s.toggle m sess op).2.store := by
  unfold Server.toggle
  rcases audit_cases m.first sess.name op.name "ok" s with ⟨store, hsave, haudit⟩ | ⟨store, hsave, haudit⟩
  · rw [haudit]
    exact .toggled op sess store hadmits hop hsave
  · rw [haudit, ← hsave]
    exact .audited _ _ _ _ rfl

theorem serveDraft_handled (sess : Session) (op : Operation) (draft : Draft) (s : Server)
    (hadmits : Admits op sess) (hop : op = .apply ∨ op = .validate)
    (hdraft : decode web web.draft r = .ok draft) :
    Handled lib y web r m Admits s.service s.store (s.serveDraft lib y m sess op draft).1
      (s.serveDraft lib y m sess op draft).2.service (s.serveDraft lib y m sess op draft).2.store := by
  unfold Server.serveDraft
  by_cases hbase : draft.baseRevision ≠ s.service.active.info.revision
  · rw [if_pos hbase]
    exact handled_audited _ _ _ _ s rfl
  rw [if_neg hbase]
  cases hdoc : document lib y m.host s.store.dir s.service.document.config draft with
  | error e => exact handled_audited _ _ _ _ s rfl
  | ok d =>
    simp only
    rcases hop with rfl | rfl
    · exact serveApply_handled sess draft d s hadmits hdraft (not_not.mp hbase) hdoc
    · rw [if_pos rfl]
      unfold Server.audited
      rcases audit_cases m.first sess.name Operation.validate.name "ok" s with
        ⟨store, hsave, haudit⟩ | ⟨store, hsave, haudit⟩
      · rw [haudit]
        have hstore : store = (s.store.audit m.first.time m.first.out sess.name "validate" "ok"
            s.service.active.info.revision).2 := by
          rw [show ("validate" : String) = Operation.validate.name from rfl, hsave]
        subst hstore
        exact .validated sess draft d hadmits hdraft (not_not.mp hbase) hdoc
      · rw [haudit, ← hsave]
        exact .audited _ _ _ _ rfl

theorem serveOperation_handled (sess : Session) (s : Server)
    (hadmits : r.method = "POST" → sess.role = "editor" → Admits (operation r.path) sess) :
    Handled lib y web r m Admits s.service s.store (s.serveOperation lib y web r m sess).1
      (s.serveOperation lib y web r m sess).2.service (s.serveOperation lib y web r m sess).2.store := by
  unfold Server.serveOperation
  simp only
  by_cases hunknown : r.method ≠ "POST" ∨ operation r.path = .unknown
  · rw [if_pos hunknown]
    exact handled_problem _ _ s
  rw [if_neg hunknown]
  by_cases hrole : sess.role ≠ "editor"
  · rw [if_pos hrole]
    exact handled_audited _ _ _ _ s rfl
  rw [if_neg hrole]
  have hadmitted := hadmits (by_contra fun h => hunknown (Or.inl h)) (not_not.mp hrole)
  by_cases htoggle : operation r.path = .enable ∨ operation r.path = .disable
  · rw [if_pos htoggle]
    exact toggle_handled sess _ s hadmitted htoggle
  rw [if_neg htoggle]
  by_cases hother : operation r.path ≠ .apply ∧ operation r.path ≠ .validate
  · rw [if_pos hother]
    exact handled_problem _ _ s
  rw [if_neg hother]
  have hop : operation r.path = .apply ∨ operation r.path = .validate := by
    by_contra hneither
    exact hother (not_or.mp hneither)
  cases hdraft : decode web web.draft r with
  | error message => exact handled_audited _ _ _ _ s rfl
  | ok draft => exact serveDraft_handled sess _ draft s hadmitted hop hdraft

theorem view_plain (path : String) (s : Server) (reply : Reply) (h : s.view path = some reply) :
    reply.plain = true := by
  unfold Server.view at h
  split_ifs at h <;> cases h <;> rfl

theorem serveSession_handled (sess : Session) (s : Server)
    (hadmits : r.method = "POST" → r.csrf = sess.csrf → sess.role = "editor" →
      Admits (operation r.path) sess) :
    Handled lib y web r m Admits s.service s.store (s.serveSession lib y web r m sess).1
      (s.serveSession lib y web r m sess).2.service (s.serveSession lib y web r m sess).2.store := by
  unfold Server.serveSession
  by_cases hcsrf : r.method = "POST" ∧ r.csrf ≠ sess.csrf
  · rw [if_pos hcsrf]
    exact handled_audited _ _ _ _ s rfl
  rw [if_neg hcsrf]
  by_cases hsession : r.path = "/api/session" ∧ r.method = "GET"
  · rw [if_pos hsession]
    exact .kept _ rfl
  rw [if_neg hsession]
  by_cases hlogout : r.path = "/api/logout" ∧ r.method = "POST"
  · rw [if_pos hlogout]
    rcases audit_cases m.first sess.name "logout" "ok" s with ⟨store, hsave, haudit⟩ | ⟨store, hsave, haudit⟩
    · rw [haudit]
      have hstore : store = (s.store.audit m.first.time m.first.out sess.name "logout" "ok"
          s.service.active.info.revision).2 := by rw [hsave]
      subst hstore
      exact .audited _ _ _ _ rfl
    · rw [haudit, ← hsave]
      exact .audited _ _ _ _ rfl
  rw [if_neg hlogout]
  cases hview : (if r.method = "GET" then s.view r.path else none) with
  | some reply =>
    have hreply : s.view r.path = some reply := by
      by_cases hget : r.method = "GET"
      · rwa [if_pos hget] at hview
      · rw [if_neg hget] at hview
        cases hview
    exact .kept _ (view_plain r.path s reply hreply)
  | none =>
    apply serveOperation_handled sess s
    intro hpost
    exact hadmits hpost (by_contra fun h => hcsrf ⟨hpost, h⟩)

theorem session_some (s : Server) (sess : Session) (h : s.session r m = some sess) :
    (∃ key, r.cookie = some key ∧ s.sessions.get? key = some sess) ∧ sess.name ≠ "" ∧
      ∃ users u, m.users = some users ∧ users.get? sess.name = some u ∧ u.hash = sess.hash ∧
        u.role = sess.role := by
  unfold Server.session at h
  cases hfound : r.cookie.bind s.sessions.get? with
  | none =>
    -- the zero session has no name
    simp only [hfound, Option.getD_none] at h
    split at h
    · cases h
    · simp at h
  | some found =>
    simp only [hfound, Option.getD_some] at h
    split at h
    · cases h
    · next u hu =>
      split_ifs at h with hbad
      cases h
      obtain ⟨hnamed, hhash, hrole⟩ := not_or.mp hbad |>.imp_right not_or.mp
      obtain ⟨key, hkey, hget⟩ := Option.bind_eq_some_iff.mp hfound
      obtain ⟨users, husers, hu⟩ := Option.bind_eq_some_iff.mp hu
      exact ⟨⟨key, hkey, hget⟩, hnamed, users, u, husers, hu, not_not.mp hhash, not_not.mp hrole⟩

@[simp] theorem forget_service (r : Request) (s : Server) : (s.forget r).service = s.service := by
  unfold Server.forget
  split <;> rfl

@[simp] theorem forget_store (r : Request) (s : Server) : (s.forget r).store = s.store := by
  unfold Server.forget
  split <;> rfl

theorem refuse_handled (s : Server) :
    Handled lib y web r m Admits s.service s.store (s.refuse r m).1 (s.refuse r m).2.service
      (s.refuse r m).2.store := by
  rw [← forget_service r s, ← forget_store r s]
  unfold Server.refuse
  simp only
  split_ifs
  · exact handled_audited _ _ _ _ (s.forget r) rfl
  · exact handled_problem _ _ (s.forget r)

theorem foldl_expire (now : ℕ) (l : List (String × Session)) (sessions : OrdMap String Session)
    (key : String) :
    (l.foldl (fun sessions e => if now < e.2.expires then sessions else sessions.erase e.1) sessions).get? key =
      if ∃ e ∈ l, e.1 = key ∧ ¬ now < e.2.expires then none else sessions.get? key := by
  induction l generalizing sessions with
  | nil => simp
  | cons e l ih =>
    rw [List.foldl_cons, ih]
    by_cases hrest : ∃ e ∈ l, e.1 = key ∧ ¬ now < e.2.expires
    · obtain ⟨f, hf, hkey⟩ := hrest
      rw [if_pos ⟨f, hf, hkey⟩, if_pos ⟨f, List.mem_cons_of_mem _ hf, hkey⟩]
    rw [if_neg hrest]
    simp only [List.exists_mem_cons_iff, hrest, or_false]
    by_cases hlive : now < e.2.expires
    · simp [hlive]
    · rw [if_neg hlive, OrdMap.get?_erase]
      simp [hlive, eq_comm]

theorem expire_get? (now : ℕ) (s : Server) (key : String) (sess : Session) :
    (s.expire now).sessions.get? key = some sess ↔ s.sessions.get? key = some sess ∧ now < sess.expires := by
  unfold Server.expire
  rw [withSessions_sessions, foldl_expire]
  constructor
  · intro h
    split_ifs at h with hdead
    refine ⟨h, ?_⟩
    by_contra hlive
    exact hdead ⟨(key, sess), (OrdMap.get?_eq_some_iff _ _ _).mp h, rfl, hlive⟩
  · rintro ⟨h, hlive⟩
    rw [if_neg, h]
    rintro ⟨⟨key', sess'⟩, he, rfl, hdead⟩
    cases h.symm.trans ((OrdMap.get?_eq_some_iff _ _ _).mpr he)
    exact hdead hlive

theorem serveHTTP_handled (s : Server) :
    Handled lib y web r m (Admitted r m s) s.service s.store (serveHTTP lib y web r m s).1
      (serveHTTP lib y web r m s).2.service (serveHTTP lib y web r m s).2.store := by
  unfold serveHTTP
  by_cases htls : r.tls = false
  · rw [if_pos htls]
    exact handled_problem _ _ s
  rw [if_neg htls]
  by_cases horigin : r.method ≠ "GET" ∧ r.origin ≠ "" ∧ r.origin ≠ "https://" ++ r.host
  · rw [if_pos horigin]
    exact handled_problem _ _ s
  rw [if_neg horigin]
  by_cases hasset : isAsset r.path = true
  · rw [if_pos hasset]
    split_ifs
    · exact handled_problem _ _ s
    · exact .kept _ rfl
  rw [if_neg hasset]
  by_cases hpoisoned : s.store.poisoned = true
  · rw [if_pos hpoisoned]
    exact handled_problem _ _ s
  rw [if_neg hpoisoned]
  by_cases hlogin : r.path = "/api/login" ∧ r.method = "POST"
  · simp only [if_pos hlogin]
    exact login_handled (s.expire m.now)
  simp only [if_neg hlogin]
  cases hsession : (s.expire m.now).session r m with
  | none => exact refuse_handled (s.expire m.now)
  | some sess =>
    obtain ⟨⟨key, hkey, hget⟩, hnamed, haccount⟩ := session_some (s.expire m.now) sess hsession
    obtain ⟨hget, hlive⟩ := (expire_get? m.now s key sess).mp hget
    apply serveSession_handled sess (s.expire m.now)
    intro hpost hcsrf hrole
    have hsame : r.origin = "" ∨ r.origin = "https://" ++ r.host := by
      by_contra h
      have hget : r.method ≠ "GET" := by rw [hpost]; decide
      exact horigin ⟨hget, not_or.mp h⟩
    exact ⟨Bool.of_not_eq_false htls, hsame, hpost, rfl, Bool.of_not_eq_true hpoisoned,
      ⟨key, hkey, hget⟩, hlive, haccount, hnamed, hcsrf, hrole⟩

end Cases

end Managed
end Faultline
