import Faultline.FixedWindow
import Faultline.ManagedAccess

/-! What the answers of the managed server show, and what a request does to the count of logins and
to the number of sessions. -/
namespace Faultline
namespace Managed

def Reply.view : Reply → Option ConfigView
  | .config view => some view
  | .conflict _ view => some view
  | _ => none

def views (service : Service) : List ProxyView :=
  service.document.config.proxies.map (fun p => ⟨p.id, p.protocol, p.listen, p.upstream, p.rules⟩)

/-- The view is of an earlier revision, or of the active one. -/
def Past (service : Service) (v : ConfigView) : Prop :=
  v.revision < service.active.info.revision ∨
    v.revision = service.active.info.revision ∧ v.proxies = views service

/-- What an answer shows is no view of the future. -/
def Response.Shows (service : Service) (a : Response) : Prop := ∀ v, a.reply.view = some v → Past service v

def Server.limiter (s : Server) : FixedWindow := ⟨s.loginWindow, s.loginCount⟩

def Reply.isFull : Reply → Bool
  | .problem message => message = "session limit reached"
  | _ => false

/-- The answer tells whether the password of a login is right. -/
def tellsPassword (r : Request) (a : Response) : Bool :=
  r.path = "/api/login" && r.method = "POST" && (a.status = 200 || a.status = 401 || a.reply.isFull)

structure Answers (s : Server) (x : Response × Server) : Prop where
  shows : x.1.Shows s.service
  limiter : x.2.limiter = s.limiter
  sessions : x.2.sessions.size ≤ max s.sessions.size 256

section Answers
variable {lib : Library} {y : Yaml} {web : Web} {r : Request} {m : Moment} {s : Server}

theorem shows_none {service : Service} {a : Response} (h : a.reply.view = none) : a.Shows service := by
  intro v hv
  rw [h] at hv
  cases hv

theorem Answers.of {s' : Server} {x : Response × Server} (h : Answers s' x) (hservice : s'.service = s.service)
    (hlimiter : s'.limiter = s.limiter) (hsessions : s'.sessions.size ≤ s.sessions.size) : Answers s x :=
  ⟨hservice ▸ h.shows, h.limiter.trans hlimiter, h.sessions.trans (max_le_max_right 256 hsessions)⟩

theorem answers_same {a : Response} (h : a.reply.view = none) : Answers s (a, s) :=
  ⟨shows_none h, rfl, le_max_left _ _⟩

theorem audit_answers {w : Write} {actor operation outcome : String} {s' : Server} {e : Option Response}
    (h : s.audit w actor operation outcome = (e, s')) :
    s'.limiter = s.limiter ∧ s'.sessions = s.sessions ∧ ∀ a, e = some a → a.Shows s.service := by
  rcases audit_cases w actor operation outcome s with ⟨store, -, haudit⟩ | ⟨store, -, haudit⟩
  · cases haudit.symm.trans h
    exact ⟨rfl, rfl, fun _ ha => by cases ha⟩
  · cases haudit.symm.trans h
    refine ⟨rfl, rfl, fun _ ha => ?_⟩
    cases ha
    exact shows_none rfl

theorem answers_failed {w : Write} {actor operation outcome : String} {s' : Server} {failed : Response}
    (h : s.audit w actor operation outcome = (some failed, s')) : Answers s (failed, s') := by
  obtain ⟨hlimiter, hsessions, hshows⟩ := audit_answers h
  exact ⟨hshows failed rfl, hlimiter, hsessions ▸ le_max_left _ _⟩

theorem answers_audited {a : Response} (h : a.Shows s.service) (w : Write) (actor operation outcome : String) :
    Answers s (s.audited w actor operation outcome a) := by
  unfold Server.audited
  split
  · next hfailed => exact answers_failed hfailed
  · next hsaved =>
    obtain ⟨hlimiter, hsessions, -⟩ := audit_answers hsaved
    exact ⟨h, hlimiter, hsessions ▸ le_max_left _ _⟩

theorem answers_refused (w : Write) (actor operation outcome : String) (status : ℕ) (message : String) :
    Answers s (s.audited w actor operation outcome (problem status message)) :=
  answers_audited (shows_none rfl) w actor operation outcome

theorem configView_past (s : Server) : Past s.service s.configView := Or.inr ⟨rfl, rfl⟩

theorem forget_size (s : Server) : (s.forget r).sessions.size ≤ s.sessions.size := by
  unfold Server.forget
  split
  · exact OrdMap.size_erase_le _ _
  · exact le_rfl

theorem openSession_answers (credentials : Credentials) (s : Server) :
    Answers s (s.openSession web r m credentials) := by
  unfold Server.openSession
  simp only
  split_ifs with _ hfull
  · exact answers_refused _ _ _ _ _ _
  · exact answers_same rfl
  split
  · next hfailed => exact answers_failed hfailed
  · next s' hsaved =>
    obtain ⟨hlimiter, hsessions, -⟩ := audit_answers hsaved
    refine ⟨shows_none rfl, hlimiter, ?_⟩
    have hforget := @forget_size r s'
    rw [hsessions] at hforget
    exact le_max_of_le_right ((OrdMap.size_insert_le _ _ _).trans (by omega))

theorem serveDraft_answers (sess : Session) (op : Operation) (draft : Draft) (s : Server) :
    Answers s (s.serveDraft lib y m sess op draft) := by
  unfold Server.serveDraft
  split_ifs
  · apply answers_audited
    intro v hv
    cases hv
    exact configView_past s
  all_goals
    split
    · exact answers_refused _ _ _ _ _ _
  · exact answers_audited (shows_none rfl) _ _ _ _
  unfold Server.serveApply
  split
  · exact ⟨shows_none rfl, rfl, le_max_left _ _⟩
  · next hrun =>
    have hservice := (apply_error hrun).1
    simp only
    split_ifs
    · exact ⟨shows_none rfl, rfl, le_max_left _ _⟩
    · exact ⟨shows_none rfl, rfl, le_max_left _ _⟩
    · exact (answers_refused _ _ _ _ _ _).of hservice rfl le_rfl
    · exact (answers_refused _ _ _ _ _ _).of hservice rfl le_rfl

theorem serveOperation_answers (sess : Session) (s : Server) :
    Answers s (s.serveOperation lib y web r m sess) := by
  unfold Server.serveOperation
  simp only
  split_ifs
  · exact answers_same rfl
  · exact answers_refused _ _ _ _ _ _
  · unfold Server.toggle
    split
    · next hfailed => exact answers_failed hfailed
    · next hsaved =>
      obtain ⟨hlimiter, hsessions, -⟩ := audit_answers hsaved
      exact ⟨shows_none rfl, hlimiter, hsessions ▸ le_max_left _ _⟩
  · exact answers_same rfl
  · split
    · exact answers_refused _ _ _ _ _ _
    · exact serveDraft_answers sess _ _ s

theorem serveSession_answers (sess : Session) (s : Server) : Answers s (s.serveSession lib y web r m sess) := by
  unfold Server.serveSession
  split_ifs
  · exact answers_refused _ _ _ _ _ _
  · exact answers_same rfl
  · split
    · next hfailed => exact answers_failed hfailed
    · next hsaved =>
      obtain ⟨hlimiter, hsessions, -⟩ := audit_answers hsaved
      exact ⟨shows_none rfl, hlimiter, le_max_of_le_left (hsessions ▸ OrdMap.size_erase_le _ _)⟩
  · split
    · next reply hview =>
      unfold Server.view at hview
      refine ⟨fun v hv => ?_, rfl, le_max_left _ _⟩
      split_ifs at hview <;> cases hview <;> cases hv
      exact configView_past s
    · exact serveOperation_answers sess s
  · exact serveOperation_answers sess s

theorem refuse_answers (s : Server) : Answers s (s.refuse r m) := by
  have hforget : (s.forget r).limiter = s.limiter := by
    unfold Server.forget
    split <;> rfl
  unfold Server.refuse
  simp only
  split_ifs
  · exact (answers_refused _ _ _ _ _ _).of (forget_service r s) hforget (forget_size s)
  · exact (answers_same rfl).of (forget_service r s) hforget (forget_size s)

theorem expire_size (now : ℕ) (s : Server) : (s.expire now).sessions.size ≤ s.sessions.size := by
  unfold Server.expire
  rw [withSessions_sessions]
  generalize s.sessions.entries = l
  generalize s.sessions = sessions
  induction l generalizing sessions with
  | nil => exact le_rfl
  | cons e l ih =>
    rw [List.foldl_cons]
    refine (ih _).trans ?_
    split_ifs
    · exact le_rfl
    · exact OrdMap.size_erase_le _ _

theorem tells_problem (status : ℕ) (message : String)
    (h : ¬ (status = 200 ∨ status = 401 ∨ message = "session limit reached")) :
    tellsPassword r (problem status message) = false := by
  obtain ⟨h200, h401, hmessage⟩ := not_or.mp h |>.imp_right not_or.mp
  simp [tellsPassword, problem, Reply.isFull, h200, h401, hmessage]

/-- A login is counted before it is looked at. -/
theorem login_cases (s : Server) : ∃ s', Answers s' (s.login web r m) ∧
    (s' = s.startWindow m.now ∧ tellsPassword r (s.login web r m).1 = false ∨
      s' = (s.startWindow m.now).countLogin ∧ (s.startWindow m.now).loginCount < 20) := by
  unfold Server.login
  simp only
  by_cases hfull : 20 ≤ (s.startWindow m.now).loginCount
  · rw [if_pos hfull]
    exact ⟨_, answers_same rfl,
      Or.inl ⟨rfl, tells_problem 429 "login rate limit; retry in one minute" (by decide)⟩⟩
  rw [if_neg hfull]
  refine ⟨_, ?_, Or.inr ⟨rfl, not_le.mp hfull⟩⟩
  split
  · exact answers_same rfl
  split_ifs
  · exact answers_same rfl
  · exact openSession_answers _ _

theorem login_limiter (s : Server) (h : s.loginCount ≤ 20) :
    FixedWindow.Step minute 20 s.limiter m.now (tellsPassword r (s.login web r m).1) (s.login web r m).2.limiter := by
  have hwindow : (s.startWindow m.now).limiter = s.limiter ∨
      (s.startWindow m.now).limiter = ⟨m.now, 0⟩ ∧ minute ≤ m.now - s.loginWindow := by
    unfold Server.startWindow
    split_ifs with hout
    · exact Or.inr ⟨rfl, hout⟩
    · exact Or.inl rfl
  have hbit := Bool.toNat_le (tellsPassword r (s.login web r m).1)
  obtain ⟨s', hanswers, hcase⟩ := @login_cases web r m s
  rw [hanswers.limiter]
  rcases hcase with ⟨rfl, htells⟩ | ⟨rfl, hroom⟩
  · rw [htells]
    rcases hwindow with hwindow | ⟨hwindow, hout⟩
    · exact ⟨Or.inl (by rw [hwindow]; exact ⟨rfl, le_rfl⟩), by rw [hwindow]; exact h⟩
    · exact ⟨Or.inr (by rw [hwindow]; exact ⟨rfl, hout, le_rfl⟩), by rw [hwindow]; exact Nat.zero_le _⟩
  · refine ⟨?_, hroom⟩
    change (s.startWindow m.now).limiter.start = s.loginWindow ∧ s.loginCount + _ ≤
      (s.startWindow m.now).limiter.count + 1 ∨ (s.startWindow m.now).limiter.start = m.now ∧
        minute ≤ m.now - s.loginWindow ∧ _ ≤ (s.startWindow m.now).limiter.count + 1
    rcases hwindow with hwindow | ⟨hwindow, hout⟩
    · rw [hwindow]
      exact Or.inl ⟨rfl, Nat.add_le_add_left hbit _⟩
    · rw [hwindow]
      exact Or.inr ⟨rfl, hout, hbit⟩

/-- What a request does: its answer shows no view of the future, the sessions stay within their
limit, and a password is only tried if the count of the logins has room. -/
theorem serveHTTP_answers (s : Server) :
    (serveHTTP lib y web r m s).1.Shows s.service ∧
      (serveHTTP lib y web r m s).2.sessions.size ≤ max s.sessions.size 256 ∧
      (s.loginCount ≤ 20 → FixedWindow.Step minute 20 s.limiter m.now
        (tellsPassword r (serveHTTP lib y web r m s).1) (serveHTTP lib y web r m s).2.limiter) := by
  have hkept {x : Response × Server} (h : Answers s x) (htells : tellsPassword r x.1 = false) :
      x.1.Shows s.service ∧ x.2.sessions.size ≤ max s.sessions.size 256 ∧
        (s.loginCount ≤ 20 → FixedWindow.Step minute 20 s.limiter m.now (tellsPassword r x.1) x.2.limiter) := by
    rw [htells, h.limiter]
    exact ⟨h.shows, h.sessions, fun hcount => ⟨Or.inl ⟨rfl, le_rfl⟩, hcount⟩⟩
  unfold serveHTTP
  simp only
  split_ifs with _ _ hasset _ _ hlogin
  · exact hkept (answers_same rfl) (tells_problem _ _ (by decide))
  · exact hkept (answers_same rfl) (tells_problem _ _ (by decide))
  · exact hkept (answers_same rfl) (tells_problem _ _ (by decide))
  · have hpath : r.path ≠ "/api/login" := fun hp => absurd (hp ▸ hasset) (by decide)
    exact hkept (answers_same rfl) (by simp [tellsPassword, hpath])
  · exact hkept (answers_same rfl) (tells_problem _ _ (by decide))
  · obtain ⟨s', hanswers, hcase⟩ := @login_cases web r m (s.expire m.now)
    have hsame : s'.service = s.service ∧ s'.sessions = (s.expire m.now).sessions := by
      rcases hcase with ⟨rfl, -⟩ | ⟨rfl, -⟩
      all_goals exact ⟨startWindow_service m.now (s.expire m.now), startWindow_sessions m.now (s.expire m.now)⟩
    refine ⟨hsame.1 ▸ hanswers.shows, hanswers.sessions.trans (max_le_max_right 256 ?_), login_limiter (s.expire m.now)⟩
    rw [hsame.2]
    exact expire_size m.now s
  · have hother (a : Response) : tellsPassword r a = false := by
      simp only [tellsPassword, Bool.and_eq_false_iff, decide_eq_false_iff_not]
      exact Or.inl (not_and_or.mp hlogin)
    split
    · exact hkept ((refuse_answers (s.expire m.now)).of rfl rfl (expire_size m.now s)) (hother _)
    · exact hkept ((serveSession_answers _ (s.expire m.now)).of rfl rfl (expire_size m.now s)) (hother _)

end Answers

end Managed
end Faultline
