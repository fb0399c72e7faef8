import Faultline.ManagedDrafts

/-! Who can change the service or the configuration that is kept: only an editor, through a session
that a login has opened, and never without an entry of the audit log. -/
namespace Faultline
namespace Managed

/-! Sessions. -/

/-- The request opened a session: it was a login with the password of the account. -/
structure LogsIn (web : Web) (x : Served) (key : String) (sess : Session) : Prop where
  tls : x.request.tls = true
  post : x.request.method = "POST"
  path : x.request.path = "/api/login"
  verified : ∃ credentials users u, decode web web.credentials x.request = .ok credentials ∧
    x.moment.users = some users ∧ users.get? credentials.name = some u ∧
    verifyPassword web u credentials.password = true ∧
    sess = ⟨credentials.name, u.role, u.hash, x.moment.csrf, x.moment.now + sessionTime⟩
  answered : x.response.status = 200 ∧ x.response.cookie = some ⟨key, 28800⟩

def LogsOut (x : Served) (key : String) : Prop :=
  x.request.method = "POST" ∧ x.request.path = "/api/logout" ∧ x.request.cookie = some key ∧
    x.response.status = 200

/-- A login of the history opened the session, and nothing has closed it since. -/
def Opened (web : Web) (history : List Served) (key : String) (sess : Session) : Prop :=
  ∃ before login after, history = before ++ login :: after ∧ LogsIn web login key sess ∧
    ∀ x ∈ after, ¬ LogsOut x key

theorem opened_snoc {web : Web} {history : List Served} {key : String} {sess : Session} (x : Served)
    (h : Opened web history key sess) (hx : ¬ LogsOut x key) : Opened web (history ++ [x]) key sess := by
  obtain ⟨before, login, after, rfl, hlogin, hafter⟩ := h
  refine ⟨before, login, after ++ [x], by simp, hlogin, ?_⟩
  intro z hz
  rcases List.mem_append.mp hz with hz | hz
  · exact hafter z hz
  · cases List.mem_singleton.mp hz
    exact hx

section Sessions
variable {lib : Library} {y : Yaml} {web : Web} {r : Request} {m : Moment}

theorem audited_sessions (w : Write) (actor operation outcome : String) (answer : Response) (s : Server) :
    (s.audited w actor operation outcome answer).2.sessions = s.sessions := by
  rw [(audited_eq w actor operation outcome answer s).2]
  rfl

theorem audit_sessions (w : Write) (actor operation outcome : String) (s : Server) :
    (s.audit w actor operation outcome).2.sessions = s.sessions := by
  rcases audit_cases w actor operation outcome s with ⟨store, -, h⟩ | ⟨store, -, h⟩ <;> rw [h] <;> rfl

theorem serveApply_sessions (sess : Session) (draft : Draft) (d : Document) (s : Server) :
    (s.serveApply lib y m sess draft d).2.sessions = s.sessions := by
  unfold Server.serveApply
  split
  · rfl
  · next store _ =>
    simp only
    by_cases hpoisoned : store.poisoned = true
    · rw [if_pos hpoisoned]
    · rw [if_neg hpoisoned, audited_sessions]

theorem toggle_sessions (sess : Session) (op : Operation) (s : Server) :
    (s.toggle m sess op).2.sessions = s.sessions := by
  have haudit := audit_sessions m.first sess.name op.name "ok" s
  unfold Server.toggle
  split
  · next h =>
    rw [h] at haudit
    exact haudit
  · next h =>
    rw [h] at haudit
    exact haudit

theorem serveDraft_sessions (sess : Session) (op : Operation) (draft : Draft) (s : Server) :
    (s.serveDraft lib y m sess op draft).2.sessions = s.sessions := by
  unfold Server.serveDraft
  by_cases hbase : draft.baseRevision ≠ s.service.active.info.revision
  · rw [if_pos hbase, audited_sessions]
  rw [if_neg hbase]
  split
  · exact audited_sessions _ _ _ _ _ s
  · by_cases hvalidate : op = .validate
    · rw [if_pos hvalidate, audited_sessions]
    · rw [if_neg hvalidate, serveApply_sessions]

theorem serveOperation_sessions (sess : Session) (s : Server) :
    (s.serveOperation lib y web r m sess).2.sessions = s.sessions := by
  unfold Server.serveOperation
  simp only
  split_ifs
  · rfl
  · exact audited_sessions _ _ _ _ _ s
  · exact toggle_sessions sess _ s
  · rfl
  · split
    · exact audited_sessions _ _ _ _ _ s
    · exact serveDraft_sessions sess _ _ s

theorem forget_get? (s : Server) (key : String) (sess : Session)
    (h : (s.forget r).sessions.get? key = some sess) : s.sessions.get? key = some sess := by
  unfold Server.forget at h
  split at h
  · rw [withSessions_sessions, OrdMap.get?_erase] at h
    split_ifs at h
    exact h
  · exact h

theorem openSession_sessions (credentials : Credentials) (s : Server) (key : String) (sess : Session)
    (h : (s.openSession web r m credentials).2.sessions.get? key = some sess) :
    s.sessions.get? key = some sess ∨
      (∃ users u, m.users = some users ∧ users.get? credentials.name = some u ∧
        verifyPassword web u credentials.password = true ∧
        sess = ⟨credentials.name, u.role, u.hash, m.csrf, m.now + sessionTime⟩) ∧
      (s.openSession web r m credentials).1.status = 200 ∧
      (s.openSession web r m credentials).1.cookie = some ⟨key, 28800⟩ := by
  have haudit := audit_sessions m.first credentials.name "login" "ok" s
  unfold Server.openSession at h ⊢
  simp only at h ⊢
  by_cases hrejected : (m.users.isNone || !verifyPassword web (m.account credentials.name) credentials.password) = true
  · rw [if_pos hrejected, audited_sessions] at h
    exact Or.inl h
  rw [if_neg hrejected] at h ⊢
  by_cases hfull : 256 ≤ s.sessions.size
  · rw [if_pos hfull] at h
    exact Or.inl h
  rw [if_neg hfull] at h ⊢
  cases hsaved : s.audit m.first credentials.name "login" "ok" with
  | mk failed s' =>
    rw [hsaved] at h haudit
    simp only at haudit
    cases failed with
    | some failed =>
      simp only [haudit] at h
      exact Or.inl h
    | none =>
      simp only [withSessions_sessions, OrdMap.get?_insert] at h ⊢
      split_ifs at h with hkey
      · cases h
        right
        -- a verified account has a role, so it is not the zero value
        rw [Bool.not_eq_true, Bool.or_eq_false_iff, Bool.not_eq_false'] at hrejected
        obtain ⟨hsome, hverified⟩ := hrejected
        obtain ⟨users, husers⟩ := Option.isSome_iff_exists.mp (Option.isNone_eq_false_iff.mp hsome)
        have hfound : ∃ u, users.get? credentials.name = some u ∧ m.account credentials.name = u := by
          cases hget : users.get? credentials.name with
          | none =>
            have hzero : m.account credentials.name = ⟨"", "", ""⟩ := by simp [Moment.account, husers, hget]
            rw [hzero] at hverified
            simp [verifyPassword] at hverified
          | some u => exact ⟨u, rfl, by simp [Moment.account, husers, hget]⟩
        obtain ⟨u, hget, haccount⟩ := hfound
        rw [haccount] at hverified
        exact ⟨⟨users, u, husers, hget, hverified, by rw [haccount]⟩, trivial, by rw [hkey]⟩
      · left
        rw [← haudit]
        exact forget_get? s' key sess h

theorem startWindow_sessions (now : ℕ) (s : Server) : (s.startWindow now).sessions = s.sessions := by
  unfold Server.startWindow
  split_ifs <;> rfl

theorem login_sessions (s : Server) (key : String) (sess : Session)
    (h : (s.login web r m).2.sessions.get? key = some sess) :
    s.sessions.get? key = some sess ∨
      (∃ credentials users u, decode web web.credentials r = .ok credentials ∧
        m.users = some users ∧ users.get? credentials.name = some u ∧
        verifyPassword web u credentials.password = true ∧
        sess = ⟨credentials.name, u.role, u.hash, m.csrf, m.now + sessionTime⟩) ∧
      (s.login web r m).1.status = 200 ∧ (s.login web r m).1.cookie = some ⟨key, 28800⟩ := by
  have hcount : (s.startWindow m.now).countLogin.sessions = s.sessions := startWindow_sessions m.now s
  unfold Server.login at h ⊢
  simp only at h ⊢
  by_cases hlimit : 20 ≤ (s.startWindow m.now).loginCount
  · rw [if_pos hlimit, startWindow_sessions] at h
    exact Or.inl h
  rw [if_neg hlimit] at h ⊢
  cases hdecode : decode web web.credentials r with
  | error e =>
    rw [hdecode, hcount] at h
    exact Or.inl h
  | ok credentials =>
    rw [hdecode] at h
    simp only at h ⊢
    by_cases hlong : 1024 < credentials.password.utf8ByteSize
    · rw [if_pos hlong, hcount] at h
      exact Or.inl h
    rw [if_neg hlong] at h ⊢
    rcases openSession_sessions credentials _ key sess h with hold | ⟨⟨users, u, hu⟩, hanswer⟩
    · exact Or.inl (hcount ▸ hold)
    · exact Or.inr ⟨⟨credentials, users, u, rfl, hu⟩, hanswer⟩

theorem refuse_sessions (s : Server) (key : String) (sess : Session)
    (h : (s.refuse r m).2.sessions.get? key = some sess) :
    s.sessions.get? key = some sess ∧ (s.refuse r m).1.status ≠ 200 := by
  unfold Server.refuse at h ⊢
  simp only at h ⊢
  split_ifs at h ⊢
  · rw [audited_sessions] at h
    refine ⟨forget_get? s key sess h, ?_⟩
    unfold Server.audited
    rcases audit_cases m.first "anonymous" (operation r.path).name "unauthorized" (s.forget r) with
      ⟨_, -, h⟩ | ⟨_, -, h⟩ <;> rw [h] <;> simp [problem]
  · exact ⟨forget_get? s key sess h, by simp [problem]⟩

theorem serveSession_sessions (current : Session) (s : Server) (key : String) (sess : Session)
    (h : (s.serveSession lib y web r m current).2.sessions.get? key = some sess) :
    s.sessions.get? key = some sess ∧
      ¬ LogsOut ⟨r, m, (s.serveSession lib y web r m current).1⟩ key := by
  have haudit := audit_sessions m.first current.name "logout" "ok" s
  unfold Server.serveSession at h ⊢
  by_cases hcsrf : r.method = "POST" ∧ r.csrf ≠ current.csrf
  · rw [if_pos hcsrf] at h ⊢
    rw [audited_sessions] at h
    refine ⟨h, ?_⟩
    rintro ⟨-, -, -, hstatus⟩
    revert hstatus
    unfold Server.audited
    rcases audit_cases m.first current.name (operation r.path).name "csrf_rejected" s with
      ⟨_, -, h⟩ | ⟨_, -, h⟩ <;> rw [h] <;> simp [problem]
  rw [if_neg hcsrf] at h ⊢
  by_cases hlogout : r.path = "/api/logout" ∧ r.method = "POST"
  · have hsession : ¬ (r.path = "/api/session" ∧ r.method = "GET") := by
      rintro ⟨hpath, -⟩
      rw [hlogout.1] at hpath
      exact absurd hpath (by decide)
    rw [if_neg hsession, if_pos hlogout] at h ⊢
    cases hsaved : s.audit m.first current.name "logout" "ok" with
    | mk failed s' =>
      rw [hsaved] at h haudit
      simp only at haudit
      rcases audit_cases m.first current.name "logout" "ok" s with ⟨store, -, hcase⟩ | ⟨store, -, hcase⟩
      · rw [hcase] at hsaved
        cases hsaved
        simp only [withSessions_sessions, OrdMap.get?_erase] at h
        split_ifs at h with hkey
        refine ⟨h, ?_⟩
        rintro ⟨-, -, hcookie, -⟩
        simp only at hcookie
        exact hkey (by simp [hcookie])
      · rw [hcase] at hsaved
        cases hsaved
        refine ⟨h, ?_⟩
        rintro ⟨-, -, -, hstatus⟩
        simp [problem] at hstatus
  · -- every other request leaves the sessions alone
    have hother (answer : Response) : ¬ LogsOut ⟨r, m, answer⟩ key := by
      rintro ⟨hpost, hpath, -⟩
      exact hlogout ⟨hpath, hpost⟩
    refine ⟨?_, hother _⟩
    rw [if_neg hlogout] at h
    split_ifs at h
    · exact h
    · split at h
      · exact h
      · rwa [serveOperation_sessions] at h
    · split at h
      · exact h
      · rwa [serveOperation_sessions] at h

theorem serveHTTP_sessions (s : Server) (key : String) (sess : Session)
    (h : (serveHTTP lib y web r m s).2.sessions.get? key = some sess) :
    s.sessions.get? key = some sess ∧ ¬ LogsOut ⟨r, m, (serveHTTP lib y web r m s).1⟩ key ∨
      LogsIn web ⟨r, m, (serveHTTP lib y web r m s).1⟩ key sess := by
  unfold serveHTTP at h ⊢
  by_cases htls : r.tls = false
  · rw [if_pos htls] at h ⊢
    exact Or.inl ⟨h, by simp [LogsOut, problem]⟩
  rw [if_neg htls] at h ⊢
  by_cases horigin : r.method ≠ "GET" ∧ r.origin ≠ "" ∧ r.origin ≠ "https://" ++ r.host
  · rw [if_pos horigin] at h ⊢
    exact Or.inl ⟨h, by simp [LogsOut, problem]⟩
  rw [if_neg horigin] at h ⊢
  by_cases hasset : isAsset r.path = true
  · have hpath : r.path ≠ "/api/logout" := by
      intro hpath
      rw [hpath] at hasset
      exact absurd hasset (by decide)
    rw [if_pos hasset] at h ⊢
    refine Or.inl ⟨?_, fun hout => hpath hout.2.1⟩
    split_ifs at h <;> exact h
  rw [if_neg hasset] at h ⊢
  by_cases hpoisoned : s.store.poisoned = true
  · rw [if_pos hpoisoned] at h ⊢
    exact Or.inl ⟨h, by simp [LogsOut, problem]⟩
  rw [if_neg hpoisoned] at h ⊢
  simp only at h ⊢
  have hlive (h : (s.expire m.now).sessions.get? key = some sess) : s.sessions.get? key = some sess :=
    ((expire_get? m.now s key sess).mp h).1
  by_cases hlogin : r.path = "/api/login" ∧ r.method = "POST"
  · rw [if_pos hlogin] at h ⊢
    rcases login_sessions (s.expire m.now) key sess h with hold | ⟨hverified, hanswer⟩
    · refine Or.inl ⟨hlive hold, ?_⟩
      rintro ⟨-, hpath, -⟩
      simp only [hlogin.1] at hpath
      exact absurd hpath (by decide)
    · exact Or.inr ⟨Bool.of_not_eq_false htls, hlogin.2, hlogin.1, hverified, hanswer⟩
  rw [if_neg hlogin] at h ⊢
  cases hsession : (s.expire m.now).session r m with
  | none =>
    rw [hsession] at h
    obtain ⟨hold, hstatus⟩ := refuse_sessions (s.expire m.now) key sess h
    exact Or.inl ⟨hlive hold, fun hout => hstatus hout.2.2.2⟩
  | some current =>
    rw [hsession] at h
    obtain ⟨hold, hout⟩ := serveSession_sessions current (s.expire m.now) key sess h
    exact Or.inl ⟨hlive hold, hout⟩

end Sessions

theorem serveAll_opened (lib : Library) (y : Yaml) (web : Web) (first : Server) (hfirst : first.sessions = ∅)
    (events : List (Request × Moment)) (key : String) (sess : Session)
    (h : (serveAll lib y web first events).2.sessions.get? key = some sess) :
    Opened web (serveAll lib y web first events).1 key sess := by
  revert key sess
  apply serveAll_rule lib y web (P := fun history s => ∀ key sess, s.sessions.get? key = some sess →
    Opened web history key sess) first
  · intro key sess h
    rw [hfirst] at h
    cases h
  · intro history s r m ih key sess h
    rcases serveHTTP_sessions s key sess h with ⟨hold, hout⟩ | hin
    · exact opened_snoc _ (ih key sess hold) hout
    · exact ⟨history, _, [], rfl, hin, by simp⟩

/-! The law. -/

def State.hasEntry (st : State) (actor operation : String) : Bool :=
  st.audit.any (fun e => e.actor = actor && e.operation = operation)

def Effect.savesEntry (actor operation : String) : Effect → Bool
  | .saved st => st.hasEntry actor operation
  | _ => false

def Effect.onService : Effect → Bool
  | .enabled _ => true
  | .published _ => true
  | _ => false

def Store.config (s : Store) : Option Bytes := s.file.current.map State.config

structure Authorized (web : Web) (history : List Served) (r : Request) (m : Moment) (op : Operation)
    (sess : Session) : Prop where
  tls : r.tls = true
  post : r.method = "POST"
  change : op = .enable ∨ op = .disable ∨ op = .apply
  path : r.path = "/api/" ++ op.name
  origin : r.origin = "" ∨ r.origin = "https://" ++ r.host
  session : ∃ key, r.cookie = some key ∧ Opened web history key sess
  unexpired : m.now < sess.expires
  account : ∃ users u, m.users = some users ∧ users.get? sess.name = some u ∧ u.hash = sess.hash ∧
    u.role = sess.role
  editor : sess.role = "editor"
  csrf : r.csrf = sess.csrf

/-- The service changes only after the entry was saved; the configuration in the file changes only
together with the entry. -/
structure Accounted (actor operation : String) (service service' : Service) (store store' : Store) : Prop where
  service : service' ≠ service → ∃ save change, store'.effects = store.effects ++ [save, change] ∧
    save.savesEntry actor operation = true ∧ change.onService = true
  config : store'.config ≠ store.config → ∃ st, store'.file.current = some st ∧
    st.hasEntry actor operation = true

theorem appendAudit_hasEntry (st : State) (now : ℕ) (actor operation outcome : String) (revision : ℕ) :
    (appendAudit st now actor operation outcome revision).hasEntry actor operation = true := by
  unfold State.hasEntry
  rw [List.any_eq_true]
  exact ⟨_, mem_appendAudit st now actor operation outcome revision, by simp⟩

theorem applied_hasEntry (y : Yaml) (st : State) (now : ℕ) (actor : String) (d : Document) (result : Result) :
    (applied y st now actor d result).hasEntry actor "apply" = true :=
  appendAudit_hasEntry st now actor "apply" "ok" result.info.revision

theorem audit_config (now : ℕ) (out : WriteOutcome) (actor operation outcome : String) (revision : ℕ)
    (s : Store) (h : s.Known) : (s.audit now out actor operation outcome revision).2.config = s.config := by
  unfold Store.audit
  have hcase := save_cases out (appendAudit s.state now actor operation outcome revision) s
  revert hcase
  generalize s.save out (appendAudit s.state now actor operation outcome revision) = result
  intro hcase
  cases hcase with
  | refused => rfl
  | failed => rfl
  | uncertain message hawake => simp [Store.config, h hawake]
  | saved hawake => simp [Store.config, h hawake]

theorem setEnabled_unchanged (s : Service) (enabled : Bool) (now : ℕ)
    (h : (s.setEnabled enabled now).1.changed = false) : (s.setEnabled enabled now).2 = s := by
  unfold Service.setEnabled at h ⊢
  simp only at h ⊢
  split_ifs at h ⊢
  rfl

theorem operation_path (path : String) (op : Operation) (h : operation path = op)
    (hop : op = .enable ∨ op = .disable ∨ op = .apply) : path = "/api/" ++ op.name := by
  unfold operation at h
  rcases hop with rfl | rfl | rfl <;> split_ifs at h with h1 h2 h3 h4 h5 h6
  · exact h5
  · exact h6
  · exact h3

theorem note_note_effects (s : Store) (e e' : Effect) : ((s.note e).note e').effects = s.effects ++ [e, e'] := by
  simp [Store.note]

theorem noteIf_config (changed : Bool) (e : Effect) (s : Store) : (s.noteIf changed e).config = s.config := by
  unfold Store.noteIf
  split_ifs <;> rfl

theorem noteIf_current (changed : Bool) (e : Effect) (s : Store) :
    (s.noteIf changed e).file.current = s.file.current := by
  unfold Store.noteIf
  split_ifs <;> rfl

section Law
variable {lib : Library} {y : Yaml} {web : Web} {r : Request} {m : Moment}
  {Admits : Operation → Session → Prop} {service service' : Service} {store store' : Store}

theorem accounted_toggle (op : Operation) (actor : String) (now : ℕ) (out : WriteOutcome) (changed : ℕ)
    (hknown : store.Known)
    (hsaved : store.audit now out actor op.name "ok" service.active.info.revision = (none, store')) :
    Accounted actor op.name service (service.setEnabled (op = .enable) changed).2 store
      (store'.noteIf (service.setEnabled (op = .enable) changed).1.changed (.enabled (op = .enable))) := by
  constructor
  · intro hservice
    have hchanged : (service.setEnabled (op = .enable) changed).1.changed = true := by
      by_contra hsame
      exact hservice (setEnabled_unchanged _ _ _ (Bool.eq_false_iff.mpr hsame))
    obtain ⟨-, rfl⟩ := saved_of_save _ _ _ _ hsaved
    rw [hchanged]
    exact ⟨_, _, note_note_effects _ _ _, appendAudit_hasEntry _ _ _ _ _ _, rfl⟩
  · intro hconfig
    have hsame := audit_config now out actor op.name "ok" service.active.info.revision store hknown
    rw [hsaved] at hsame
    rw [noteIf_config] at hconfig
    exact absurd hsame hconfig

theorem accounted_apply (actor : String) (d : Document) (base now : ℕ) (result : Result)
    (hrun : service.applyRevision lib (persist y m actor) store (some d) base now =
      (.ok result, service', store')) :
    Accounted actor "apply" service service' store
      (store'.noteIf result.changed (.published result.info.revision)) := by
  obtain ⟨-, hsave, hresult⟩ := apply_ok hrun
  obtain ⟨-, rfl⟩ := saved_of_save _ _ _ _ hsave
  constructor
  · intro hservice
    rcases hresult with ⟨-, hsame, -⟩ | ⟨rfl, -⟩
    · exact absurd hsame hservice
    · exact ⟨_, _, note_note_effects _ _ _, applied_hasEntry _ _ _ _ _ _, rfl⟩
  · intro _
    rw [noteIf_current]
    exact ⟨_, (DurableFile.current_sync _).trans (DurableFile.current_rename _ _), applied_hasEntry _ _ _ _ _ _⟩

theorem accounted_failure (actor : String) (d : Document) (base now : ℕ) (e : ServiceError)
    (hrun : service.applyRevision lib (persist y m actor) store (some d) base now =
      (.error e, service', store')) :
    Accounted actor "apply" service service' store store' ∧
      (store'.poisoned = false → store'.config = store.config) := by
  obtain ⟨rfl, hsave⟩ := apply_error hrun
  rcases hsave with rfl | ⟨result, message, hsave, -⟩
  · exact ⟨⟨fun h => absurd rfl h, fun h => absurd rfl h⟩, fun _ => rfl⟩
  · have hcase := save_cases m.first.out (applied y store.state m.first.time actor d result) store
    unfold Store.apply at hsave
    rw [hsave] at hcase
    cases hcase with
    | refused => exact ⟨⟨fun h => absurd rfl h, fun h => absurd rfl h⟩, fun _ => rfl⟩
    | failed => exact ⟨⟨fun h => absurd rfl h, fun h => absurd rfl h⟩, fun _ => rfl⟩
    | uncertain =>
      refine ⟨⟨fun h => absurd rfl h, fun _ => ⟨_, DurableFile.current_rename _ _, applied_hasEntry _ _ _ _ _ _⟩⟩,
        ?_⟩
      intro hawake
      cases hawake

/-- A request that changes something was admitted, and is accounted for. -/
theorem Handled.accounted {answer : Response}
    (h : Handled lib y web r m Admits service store answer service' store') (hknown : store.Known)
    (hchange : service' ≠ service ∨ store'.config ≠ store.config) :
    ∃ op sess, (op = .enable ∨ op = .disable ∨ op = .apply) ∧ Admits op sess ∧
      Accounted sess.name op.name service service' store store' := by
  have haudited {actor operation outcome : String}
      (h : service ≠ service ∨ (store.audit m.first.time m.first.out actor operation outcome
        service.active.info.revision).2.config ≠ store.config) : False :=
    h.elim (fun h => h rfl) (fun h => h (audit_config _ _ _ _ _ _ _ hknown))
  cases h with
  | kept => exact (hchange.elim (fun h => h rfl) (fun h => h rfl)).elim
  | audited => exact (haudited hchange).elim
  | validated => exact (haudited hchange).elim
  | toggled op sess store' hadmits hop hsaved =>
    have hchange : op = .enable ∨ op = .disable ∨ op = .apply := hop.imp_right Or.inl
    exact ⟨op, sess, hchange, hadmits, accounted_toggle op sess.name _ _ _ hknown hsaved⟩
  | applied sess draft d result _ _ hadmits hdraft hbase hdoc hrun =>
    exact ⟨.apply, sess, Or.inr (Or.inr rfl), hadmits, accounted_apply sess.name d _ _ result hrun⟩
  | uncertain sess draft d e _ _ _ hadmits hdraft hbase hdoc hrun =>
    exact ⟨.apply, sess, Or.inr (Or.inr rfl), hadmits, (accounted_failure sess.name d _ _ e hrun).1⟩
  | failed sess draft d e _ store' _ hadmits hdraft hbase hdoc hrun hreply hawake =>
    -- the second save only adds an entry, so nothing has changed
    have hservice := (apply_error hrun).1
    have hconfig := (accounted_failure sess.name d _ _ e hrun).2 hawake
    have hstore : store'.Known := by
      rcases apply_saves hrun with rfl | ⟨result, rfl⟩
      · exact hknown
      · exact known_save _ _ _ hknown
    rw [audit_config _ _ _ _ _ _ _ hstore, hconfig] at hchange
    exact (hchange.elim (fun h => h hservice) (fun h => h rfl)).elim

end Law

/-- The server before the user sends the draft, and after it was applied with the given outcome of the
save. -/
def sampleOpened (first : Server) : List Served × Server :=
  serveAll standardLibrary sampleYaml sampleWeb first [sampleLogin]

def sampleApplied (out : WriteOutcome) (first : Server) : Server :=
  (serveHTTP standardLibrary sampleYaml sampleWeb (sampleRequest "/api/apply") (sampleMoment out)
    (sampleOpened first).2).2

def sampleSession : Session :=
  ⟨"ann", "editor", passwordHash sampleWeb "correct horse" (List.replicate 16 0), "csrf", sessionTime⟩

theorem sample_opened (first : Server) (hfirst : (start standardLibrary sampleYaml sampleBoot sampleFile).1 = some first) :
    (sampleOpened first).2.sessions.get? "token" = some sampleSession ∧
      (sampleOpened first).2.store.poisoned = false ∧
      (sampleOpened first).2.store.dir = "/var/faultline" ∧
      (sampleOpened first).2.store.config = some sampleText ∧
      (sampleOpened first).2.store.effects.all (fun e => !e.savesEntry "ann" "apply") = true ∧
      (sampleOpened first).2.service.active.info.revision = 1 ∧
      (sampleOpened first).2.service.document.config = sampleConfig sampleRules := by
  have h : (start standardLibrary sampleYaml sampleBoot sampleFile).1.all (fun first =>
      (sampleOpened first).2.sessions.get? "token" = some sampleSession ∧
      (sampleOpened first).2.store.poisoned = false ∧
      (sampleOpened first).2.store.dir = "/var/faultline" ∧
      (sampleOpened first).2.store.config = some sampleText ∧
      (sampleOpened first).2.store.effects.all (fun e => !e.savesEntry "ann" "apply") = true ∧
      (sampleOpened first).2.service.active.info.revision = 1 ∧
      (sampleOpened first).2.service.document.config = sampleConfig sampleRules) = true := by
    decide +kernel
  rw [hfirst, Option.all_some, decide_eq_true_eq] at h
  exact h

theorem sample_admitted (first : Server) (out : WriteOutcome)
    (hfirst : (start standardLibrary sampleYaml sampleBoot sampleFile).1 = some first) :
    Admitted (sampleRequest "/api/apply") (sampleMoment out) (sampleOpened first).2 .apply sampleSession where
  tls := rfl
  origin := Or.inl rfl
  post := rfl
  operation := by decide
  awake := (sample_opened first hfirst).2.1
  session := ⟨"token", rfl, (sample_opened first hfirst).1⟩
  unexpired := by
    change 0 < sessionTime
    decide
  account := ⟨sampleUsers, _, rfl, rfl, rfl, rfl⟩
  named := by decide
  editor := rfl
  csrf := rfl

/-- The directory could not be synced after the rename: the configuration in the file is another one,
and no state with the entry was saved with success. -/
theorem unsynced_config_changes : ∃ first,
    (start standardLibrary sampleYaml sampleBoot sampleFile).1 = some first ∧
    (sampleApplied (.uncertain "sync") first).store.config ≠ (sampleOpened first).2.store.config ∧
    ∀ e ∈ (sampleApplied (.uncertain "sync") first).store.effects, e.savesEntry "ann" "apply" = false := by
  obtain ⟨first, hfirst⟩ := sample_started
  obtain ⟨-, hawake, hdir, hconfig, heffects, hrevision, hactive⟩ := sample_opened first hfirst
  have hnew : (document standardLibrary sampleYaml sampleHost "/var/faultline" (sampleConfig sampleRules)
      sampleDraft).toOption.any (fun d => encode sampleYaml d.config ≠ sampleText) = true := by
    decide +kernel
  cases hdoc : document standardLibrary sampleYaml sampleHost "/var/faultline" (sampleConfig sampleRules)
      sampleDraft with
  | error e =>
    rw [hdoc] at hnew
    cases hnew
  | ok d =>
    have htext : encode sampleYaml d.config ≠ sampleText := by
      simpa only [hdoc, Except.toOption, Option.any_some, decide_eq_true_eq] using hnew
    rw [← hdir, ← hactive] at hdoc
    have hfaithful : sampleYaml.Faithful := standardYaml_faithful _ _ (by decide +kernel)
    obtain ⟨host, hhost⟩ := @serveAll_accepted standardLibrary sampleYaml sampleWeb first
      ⟨sampleBoot.host, (start_fresh hfirst).accepted⟩ [sampleLogin]
    have hfiles : ∀ f ∈ (sampleOpened first).2.service.document.config.tlsFiles,
        sampleHost.readFile f = host.readFile f := by
      rw [hactive]
      intro f hf
      cases hf
    have haccepted := document_accepted hfaithful hhost.normal hfiles hdoc
    have hdraft : decode sampleWeb sampleWeb.draft (sampleRequest "/api/apply") = .ok sampleDraft := by
      simp [decode, sampleWeb, sampleRequest]
    obtain ⟨result, hstore⟩ := serveHTTP_uncertain (m := sampleMoment (.uncertain "sync"))
      (sample_admitted first (.uncertain "sync") hfirst) hdraft hrevision.symm hdoc haccepted.valid
      haccepted.compatible rfl
    have hsave : (sampleApplied (.uncertain "sync") first).store =
        { (sampleOpened first).2.store with
          file := (sampleOpened first).2.store.file.rename
            (applied sampleYaml (sampleOpened first).2.store.state 0 "ann" d result)
          poisoned := true }.note
          (.uncertain (applied sampleYaml (sampleOpened first).2.store.state 0 "ann" d result)) := by
      unfold sampleApplied
      rw [hstore]
      simp [Store.save, hawake, sampleMoment, DurableFile.replace, sampleSession]
    refine ⟨first, hfirst, ?_, ?_⟩
    · rw [hsave, hconfig]
      intro hsame
      exact htext (by simpa [Store.config, applied] using hsame)
    · intro e he
      rw [hsave] at he
      rcases List.mem_append.mp he with he | he
      · simpa using List.all_eq_true.mp heffects e he
      · cases List.mem_singleton.mp he
        rfl

/-- Only an authorized request changes the service or the configuration that is kept, and each
change is accounted for. -/
theorem changes_authorized (lib : Library) (y : Yaml) (web : Web) (b : Boot) (file : DurableFile State)
    (first : Server) (hstart : (start lib y b file).1 = some first) (events : List (Request × Moment))
    (history : List Served) (s : Server) (hrun : serveAll lib y web first events = (history, s))
    (r : Request) (m : Moment) :
    ((serveHTTP lib y web r m s).2.service = s.service ∧
        (serveHTTP lib y web r m s).2.store.config = s.store.config) ∨
      ∃ op sess, Authorized web history r m op sess ∧
        Accounted sess.name op.name s.service (serveHTTP lib y web r m s).2.service s.store
          (serveHTTP lib y web r m s).2.store := by
  have hfresh := start_fresh hstart
  have hknown := @serveAll_known lib y web first hfresh.known events
  have hopened := serveAll_opened lib y web first hfresh.sessions events
  rw [hrun] at hknown hopened
  by_cases hsame : (serveHTTP lib y web r m s).2.service = s.service ∧
      (serveHTTP lib y web r m s).2.store.config = s.store.config
  · exact Or.inl hsame
  right
  obtain ⟨op, sess, hchange, hadmitted, haccounted⟩ :=
    (serveHTTP_handled s).accounted hknown (not_and_or.mp hsame)
  obtain ⟨key, hkey, hget⟩ := hadmitted.session
  exact ⟨op, sess, ⟨hadmitted.tls, hadmitted.post, hchange,
    operation_path r.path op hadmitted.operation hchange, hadmitted.origin,
    ⟨key, hkey, hopened key sess hget⟩, hadmitted.unexpired, hadmitted.account, hadmitted.editor,
    hadmitted.csrf⟩, haccounted⟩

def sampleEnabled (first : Server) : Server :=
  (serveHTTP standardLibrary sampleYaml sampleWeb (sampleRequest "/api/enable") (sampleMoment .saved)
    (sampleOpened first).2).2

theorem changes_authorized_enable : ∃ first, (start standardLibrary sampleYaml sampleBoot sampleFile).1 = some first ∧
    ∃ op sess, Authorized sampleWeb (sampleOpened first).1 (sampleRequest "/api/enable")
        (sampleMoment .saved) op sess ∧
      Accounted sess.name op.name (sampleOpened first).2.service (sampleEnabled first).service
        (sampleOpened first).2.store (sampleEnabled first).store := by
  obtain ⟨first, hfirst⟩ := sample_started
  have hchanged : (start standardLibrary sampleYaml sampleBoot sampleFile).1.any (fun first =>
      (sampleEnabled first).service.active.info.enabled ≠ (sampleOpened first).2.service.active.info.enabled) = true := by
    decide +kernel
  rw [hfirst, Option.any_some, decide_eq_true_eq] at hchanged
  rcases changes_authorized standardLibrary sampleYaml sampleWeb sampleBoot sampleFile first hfirst
    [sampleLogin] (sampleOpened first).1 (sampleOpened first).2 Prod.mk.eta.symm
    (sampleRequest "/api/enable") (sampleMoment .saved) with ⟨hsame, -⟩ | hauthorized
  · exact absurd (congrArg (fun service => service.active.info.enabled) hsame) hchanged
  · exact ⟨first, hfirst, hauthorized⟩

end Managed
end Faultline
