import Faultline.Machine
import Faultline.ManagedAnswers

/-! The tabs of the managed UI. A tab edits a draft of the rules beside the configuration it has
loaded, has the server check the draft and then applies it, while other tabs and other clients do
the same. -/
namespace Faultline
namespace Managed

/-! One tab. -/

/-- A draft in a tab. `P` stands for the JSON text of its proxies. -/
structure TabDraft (P : Type) where
  base : ℕ
  proxies : P
  deriving DecidableEq

structure Identity where
  name : String
  role : String
  csrf : String

/-- The variables of a tab, and whether its apply button is disabled. `reviewed` is none where the
source has the empty text. -/
structure Tab (P : Type) where
  session : Option Identity
  active : Option ConfigView
  draft : Option (TabDraft P)
  reviewed : Option (TabDraft P)
  busy : Bool
  draftChanged : Bool
  applyDisabled : Bool

/-- What a tab waits for. With a draft that is applied stands the view that the tab shows beside it. -/
inductive Wait (P : Type) where
  | session (login : Option Bytes)
  | signedIn
  | status (last : Bool)
  | refresh (last : Bool)
  | discard
  | validate (submitted : TabDraft P)
  | apply (draft : TabDraft P) (shown : ConfigView)
  | applied
  | logout

inductive Act (P : Type) where
  | open
  | login (body : Bytes)
  | logout
  | poll
  | edit (proxies : P)
  | rebase
  | refresh
  | discard
  | validate
  | apply

section Tab
variable {P : Type} [DecidableEq P] (load : List ProxyView → P)

def Tab.editor (t : Tab P) : Bool := t.session.any (fun s => s.role = "editor")

def Tab.showDiff (t : Tab P) : Tab P :=
  match t.draft, t.active with
  | some d, some a =>
    { t with applyDisabled := !t.editor || t.busy || t.reviewed ≠ some d || d.base ≠ a.revision }
  | _, _ => t

def Tab.edited (t : Tab P) (d : TabDraft P) : Tab P :=
  { t with draft := some d, draftChanged := true, reviewed := none }.showDiff

def Tab.resetDraft (a : ConfigView) (t : Tab P) : Tab P :=
  { t with
    active := some a, draftChanged := false, draft := some ⟨a.revision, load a.proxies⟩, reviewed := none }.showDiff

/-- The draft beside another configuration: it has to be reviewed again. -/
def Tab.compare (a : ConfigView) (t : Tab P) : Tab P := { t with active := some a, reviewed := none }.showDiff

/-- The `finally` of an apply. -/
def Tab.finish (last : Bool) (t : Tab P) : Tab P := if last then { t with busy := false }.showDiff else t

/-- `api` once it has an answer; none is a request that failed. -/
def Tab.api (answer : Option Response) (t : Tab P) : Option Reply × Tab P :=
  match answer with
  | none => (none, t)
  | some a =>
    if 200 ≤ a.status ∧ a.status < 300 then (some a.reply, t)
    else
      let t := if a.status = 401 then { t with session := none } else t
      match a.reply with
      | .conflict _ active => (none, if a.status = 409 then t.compare active else t)
      | _ => (none, t)

/-- What follows an answer, and what the tab waits for next. Whether the status names another
revision than the one that is loaded is given. -/
def Tab.settle (stale : Bool) (w : Wait P) (answer : Option Response) (t : Tab P) : Tab P × List (Wait P) :=
  match w, t.api answer with
  | .session _, (some (.identity name role csrf), t) => ({ t with session := some ⟨name, role, csrf⟩ }, [.signedIn])
  | .signedIn, (some (.config a), t) =>
    (if t.draft.isNone || !t.draftChanged then t.resetDraft load a else t.compare a, [.status false])
  | .status last, (some _, t) => if stale then (t, [.refresh last]) else (t.finish last, [])
  | .status last, (none, t) => (t.finish last, [])
  | .refresh last, (some (.config a), t) => ((t.compare a).finish last, [])
  | .refresh last, (_, t) => (t.finish last, [])
  | .discard, (some (.config a), t) => (t.resetDraft load a, [])
  | .validate d, (some _, t) => (if t.draft = some d then { t with reviewed := some d }.showDiff else t, [])
  | .apply _ _, (some _, t) => (t, [.applied])
  | .apply _ _, (none, t) => (t.finish true, [])
  | .applied, (some (.config a), t) => (t.resetDraft load a, [.status true])
  | .applied, (_, t) => (t.finish true, [])
  | .logout, (some _, t) => ({ t with session := none, draft := none }, [])
  | _, (_, t) => (t, [])

def Tab.work (a : Act P) (t : Tab P) : Tab P × List (Wait P) :=
  match a, t.draft, t.active with
  | .edit proxies, some d, _ => (t.edited { d with proxies := proxies }, [])
  | .rebase, some d, some a => (t.edited { d with base := a.revision }, [])
  | .refresh, _, _ => (t, [.refresh false])
  | .discard, _, _ => (t, [.discard])
  | .validate, some d, _ => (t, [.validate d])
  | .apply, some d, some a =>
    if t.applyDisabled || t.reviewed ≠ some d then (t, []) else ({ t with busy := true }.showDiff, [.apply d a])
  | _, _, _ => (t, [])

def Tab.act (a : Act P) (t : Tab P) : Tab P × List (Wait P) :=
  match a with
  | .open => (t, [.session none])
  | .login body => (t, [.session (some body)])
  | .logout => (t, [.logout])
  | .poll => if t.session.isSome then (t, [.status false]) else (t, [])
  -- the workspace is hidden without a session and inert during an apply
  | a => if t.session.isSome && !t.busy then t.work a else (t, [])

end Tab

/-! The tabs and the server. -/

def Wait.path {P : Type} : Wait P → String
  | .session login => if login.isSome then "/api/login" else "/api/session"
  | .status _ => "/api/status"
  | .signedIn | .refresh _ | .discard | .applied => "/api/config"
  | .validate _ => "/api/validate"
  | .apply _ _ => "/api/apply"
  | .logout => "/api/logout"

/-- The body of a POST; none is a GET. -/
def Wait.body {P : Type} (text : TabDraft P → Bytes) : Wait P → Option Bytes
  | .session login => login
  | .validate d | .apply d _ => some (text d)
  | .logout => some (bytesOf "\x7b\x7d")
  | _ => none

structure Browser where
  tls : Bool
  host : String
  origin : String
  cookie : Option String

structure Asked (P : Type) where
  tab : ℕ
  wait : Wait P
  csrf : String

def Asked.request {P : Type} (text : TabDraft P → Bytes) (b : Browser) (q : Asked P) : Request :=
  match q.wait.body text with
  | some body => ⟨b.tls, "POST", b.host, q.wait.path, b.origin, b.cookie, q.csrf, "application/json", ⟨body, true⟩⟩
  | none => ⟨b.tls, "GET", b.host, q.wait.path, b.origin, b.cookie, "", "", ⟨[], true⟩⟩

/-- The server, the tabs, and the requests and the answers on their way. -/
structure Shared (P : Type) where
  server : Server
  tabs : ℕ → Tab P
  asked : List (Asked P)
  told : List (Asked P × Option Response)

/-- A tab moves, a request is served or lost, an answer arrives or is lost, or a client that is no
tab makes a request. -/
inductive Move (P : Type) where
  | act (tab : ℕ) (a : Act P)
  | serve (i : ℕ) (b : Browser) (m : Moment)
  | lose (i : ℕ)
  | settle (i : ℕ) (stale received : Bool)
  | other (r : Request) (m : Moment)

section Shared
variable {P : Type} [DecidableEq P] (lib : Library) (y : Yaml) (web : Web) (text : TabDraft P → Bytes)
  (load : List ProxyView → P)

def Shared.start (server : Server) : Shared P := ⟨server, fun _ => ⟨none, none, none, none, false, false, true⟩, [], []⟩

def Shared.put (k : ℕ) (next : Tab P × List (Wait P)) (s : Shared P) : Shared P :=
  { s with
    tabs := Function.update s.tabs k next.1
    asked := s.asked ++ next.2.map (fun w => ⟨k, w, (next.1.session.map Identity.csrf).getD ""⟩) }

def Shared.serve (q : Asked P) (b : Browser) (m : Moment) (s : Shared P) : Response × Server :=
  serveHTTP lib y web (q.request text b) m s.server

def Shared.answer (i : ℕ) (q : Asked P) (a : Option Response) (s : Shared P) : Shared P :=
  { s with asked := s.asked.eraseIdx i, told := s.told ++ [(q, a)] }

def Shared.step (s : Shared P) : Move P → Unit × Shared P
  | .act k a => ((), s.put k ((s.tabs k).act a))
  | .serve i b m =>
    match s.asked[i]? with
    | none => ((), s)
    | some q =>
      let (a, server) := s.serve lib y web text q b m
      ((), { s with server := server }.answer i q (some a))
  | .lose i =>
    match s.asked[i]? with
    | none => ((), s)
    | some q => ((), s.answer i q none)
  | .settle i stale received =>
    match s.told[i]? with
    | none => ((), s)
    | some (q, a) =>
      ((), { s with told := s.told.eraseIdx i }.put q.tab
        ((s.tabs q.tab).settle load stale q.wait (if received then a else none)))
  | .other r m => ((), { s with server := (serveHTTP lib y web r m s.server).2 })

/-- The system after a run from a server at which no tab is open yet. -/
def Shared.after (first : Server) (moves : List (Move P)) : Shared P :=
  (run (Shared.step lib y web text load) (Shared.start first) moves).2

end Shared

/-! What a request does to the views. -/

section Answers
variable {lib : Library} {y : Yaml} {web : Web} {r : Request} {m : Moment}

theorem Past.serve {v : ConfigView} {s : Server} (h : Past s.service v) (r : Request) (m : Moment) :
    Past (serveHTTP lib y web r m s).2.service v := by
  rcases (@serveHTTP_handled lib y web r m s).revision with hnew | ⟨hrevision, hdocument⟩
  · rcases h with h | ⟨h, -⟩
    · exact Or.inl (h.trans hnew)
    · exact Or.inl (h.trans_lt hnew)
  · unfold Past views
    rw [hrevision, hdocument]
    exact h

/-- A request that changes the revision carried a draft of the active revision. -/
theorem published {s : Server}
    (h : (serveHTTP lib y web r m s).2.service.active.info.revision ≠ s.service.active.info.revision) :
    ∃ draft, decode web web.draft r = .ok draft ∧ draft.baseRevision = s.service.active.info.revision ∧
      document lib y m.host s.store.dir s.service.document.config draft =
        .ok (serveHTTP lib y web r m s).2.service.document ∧
      (serveHTTP lib y web r m s).2.service.active.info.revision = s.service.active.info.revision + 1 := by
  have hcase := @serveHTTP_handled lib y web r m s
  revert h hcase
  generalize (serveHTTP lib y web r m s).2.service = service'
  generalize (serveHTTP lib y web r m s).2.store = store'
  generalize (serveHTTP lib y web r m s).1 = answer
  intro h hcase
  cases hcase with
  | applied sess draft d result _ _ hadmits hdraft hbase hdoc hrun =>
    rcases (apply_ok hrun).2.2 with ⟨-, hsame, -⟩ | ⟨-, -, -, engine, hpush⟩
    · exact absurd (by rw [hsame]) h
    · exact ⟨draft, hdraft, hbase, by rw [hpush, push_document]; exact hdoc, by rw [hpush]; rfl⟩
  | toggled op => exact absurd (setEnabled_revision _ _ _) h
  | uncertain _ _ _ _ _ _ _ _ _ _ _ hrun => exact absurd (by rw [(apply_error hrun).1]) h
  | failed _ _ _ _ _ _ _ _ _ _ _ hrun => exact absurd (by rw [(apply_error hrun).1]) h
  | _ => exact absurd rfl h

end Answers

/-! What the tabs hold. -/

section Tabs
variable {P : Type} {service : Service} {t : Tab P}

/-- A draft that can be applied is based on the view beside it. -/
structure Tab.Ready (service : Service) (t : Tab P) : Prop where
  active : ∀ v, t.active = some v → Past service v
  loaded : t.draft.isSome → t.active.isSome
  base : t.applyDisabled = false → ∀ d, t.reviewed = some d → t.draft = some d →
    ∃ v, t.active = some v ∧ d.base = v.revision

structure Follows (service : Service) (next : Tab P × List (Wait P)) : Prop where
  tab : next.1.Ready service
  asked : ∀ w ∈ next.2, ∀ d shown, w = .apply d shown → d.base = shown.revision ∧ Past service shown

theorem Tab.Ready.asks_nothing (h : t.Ready service) : Follows service (t, []) :=
  ⟨h, fun _ hw => by cases hw⟩

theorem Tab.Ready.asks (h : t.Ready service) (w : Wait P) (hw : ∀ d shown, w ≠ .apply d shown) :
    Follows service (t, [w]) := by
  refine ⟨h, fun w' hw' d shown happly => ?_⟩
  cases List.mem_singleton.mp hw'
  exact absurd happly (hw d shown)

variable [DecidableEq P] {load : List ProxyView → P}

theorem showDiff_ready (hactive : ∀ v, t.active = some v → Past service v)
    (hloaded : t.draft.isSome → t.active.isSome) : t.showDiff.Ready service := by
  unfold Tab.showDiff
  split
  · next d a hdraft hview =>
    refine ⟨hactive, hloaded, ?_⟩
    intro henabled d' _ hd'
    cases hdraft.symm.trans hd'
    simp only [Bool.or_eq_false_iff, decide_eq_false_iff_not, not_not] at henabled
    exact ⟨a, hview, henabled.2⟩
  · next hnone =>
    refine ⟨hactive, hloaded, ?_⟩
    intro _ d _ hd
    obtain ⟨a, ha⟩ := Option.isSome_iff_exists.mp (hloaded (by rw [hd]; rfl))
    exact absurd ha (hnone d a hd)

theorem compare_ready {v : ConfigView} (hv : Past service v) : (t.compare v).Ready service :=
  showDiff_ready (fun _ hv' => Option.some.inj hv' ▸ hv) (fun _ => rfl)

theorem resetDraft_ready {v : ConfigView} (hv : Past service v) : (t.resetDraft load v).Ready service :=
  showDiff_ready (fun _ hv' => Option.some.inj hv' ▸ hv) (fun _ => rfl)

theorem Tab.Ready.finish (h : t.Ready service) (last : Bool) : (t.finish last).Ready service := by
  unfold Tab.finish
  split_ifs
  · exact showDiff_ready h.active h.loaded
  · exact h

theorem Tab.Ready.api (h : t.Ready service) {answer : Option Response} (ha : ∀ a ∈ answer, a.Shows service) :
    (t.api answer).2.Ready service ∧
      ∀ v, (t.api answer).1 = some (.config v) → Past service v := by
  unfold Tab.api
  split
  · exact ⟨h, fun _ hr => by cases hr⟩
  · next a =>
    have hsession : (if a.status = 401 then { t with session := none } else t).Ready service := by
      split_ifs
      · exact ⟨h.active, h.loaded, h.base⟩
      · exact h
    by_cases hok : 200 ≤ a.status ∧ a.status < 300
    · rw [if_pos hok]
      refine ⟨h, fun v hv => ha a rfl v ?_⟩
      rw [Option.some.inj hv]
      rfl
    · rw [if_neg hok]
      simp only
      split
      · next active hreply =>
        refine ⟨?_, fun _ hr => by cases hr⟩
        by_cases hconflict : a.status = 409
        · rw [if_pos hconflict]
          exact compare_ready (ha a rfl active (by rw [hreply]; rfl))
        · rw [if_neg hconflict]
          exact hsession
      · exact ⟨hsession, fun _ hr => by cases hr⟩

theorem Tab.Ready.settle (h : t.Ready service) (stale : Bool) (w : Wait P) {answer : Option Response}
    (ha : ∀ a ∈ answer, a.Shows service) : Follows service (t.settle load stale w answer) := by
  obtain ⟨hready, hview⟩ := h.api ha
  unfold Tab.settle
  generalize t.api answer = result at hready hview
  obtain ⟨reply, t'⟩ := result
  split <;> rename_i heq <;> cases heq
  · refine Tab.Ready.asks ?_ _ (fun _ _ hw => by cases hw)
    exact ⟨hready.active, hready.loaded, hready.base⟩
  · refine Tab.Ready.asks ?_ _ (fun _ _ hw => by cases hw)
    split_ifs
    · exact resetDraft_ready (hview _ rfl)
    · exact compare_ready (hview _ rfl)
  · split_ifs
    · exact hready.asks _ (fun _ _ hw => by cases hw)
    · exact (hready.finish _).asks_nothing
  · exact (hready.finish _).asks_nothing
  · exact ((compare_ready (hview _ rfl)).finish _).asks_nothing
  · exact (hready.finish _).asks_nothing
  · exact (resetDraft_ready (hview _ rfl)).asks_nothing
  · apply Tab.Ready.asks_nothing
    split_ifs
    · exact showDiff_ready hready.active hready.loaded
    · exact hready
  · exact hready.asks _ (fun _ _ hw => by cases hw)
  · exact (hready.finish _).asks_nothing
  · exact (resetDraft_ready (hview _ rfl)).asks _ (fun _ _ hw => by cases hw)
  · exact (hready.finish _).asks_nothing
  · exact Tab.Ready.asks_nothing ⟨hready.active, fun hd => (by cases hd), fun _ _ _ hd => by cases hd⟩
  · exact hready.asks_nothing

theorem Tab.Ready.work (h : t.Ready service) (a : Act P) : Follows service (t.work a) := by
  have hedited (d d' : TabDraft P) (hd : t.draft = some d) : (t.edited d').Ready service :=
    showDiff_ready h.active (fun _ => h.loaded (by rw [hd]; rfl))
  unfold Tab.work
  split
  · next hd => exact (hedited _ _ hd).asks_nothing
  · next hd _ => exact (hedited _ _ hd).asks_nothing
  · exact h.asks _ (fun _ _ hw => by cases hw)
  · exact h.asks _ (fun _ _ hw => by cases hw)
  · exact h.asks _ (fun _ _ hw => by cases hw)
  · next d v hd hv =>
    split_ifs with hdisabled
    · exact h.asks_nothing
    -- the button is enabled for this text, so the text is based on the view
    obtain ⟨henabled, hreviewed⟩ := not_or.mp (fun hor => hdisabled (Bool.or_eq_true_iff.mpr hor))
    have hchecked : t.reviewed = some d := not_not.mp (fun hne => hreviewed (decide_eq_true hne))
    obtain ⟨v', hv', hbase⟩ := h.base (Bool.eq_false_iff.mpr henabled) d hchecked hd
    cases hv.symm.trans hv'
    refine ⟨showDiff_ready h.active h.loaded, fun w hw d' shown happly => ?_⟩
    cases List.mem_singleton.mp hw
    cases happly
    exact ⟨hbase, h.active v hv⟩
  · exact h.asks_nothing

theorem Tab.Ready.act (h : t.Ready service) (a : Act P) : Follows service (t.act a) := by
  unfold Tab.act
  split
  · exact h.asks _ (fun _ _ hw => by cases hw)
  · exact h.asks _ (fun _ _ hw => by cases hw)
  · exact h.asks _ (fun _ _ hw => by cases hw)
  · split_ifs
    · exact h.asks _ (fun _ _ hw => by cases hw)
    · exact h.asks_nothing
  · split_ifs
    · exact h.work _
    · exact h.asks_nothing

/-! Runs of the tabs. -/

structure Shared.Ready (s : Shared P) : Prop where
  tabs : ∀ k, (s.tabs k).Ready s.server.service
  asked : ∀ q ∈ s.asked, ∀ d shown, q.wait = .apply d shown →
    d.base = shown.revision ∧ Past s.server.service shown
  told : ∀ x ∈ s.told, ∀ a ∈ x.2, a.Shows s.server.service

variable {lib : Library} {y : Yaml} {web : Web} {text : TabDraft P → Bytes} {s : Shared P}

omit [DecidableEq P] in
theorem Shared.Ready.put (h : s.Ready) (k : ℕ) {next : Tab P × List (Wait P)}
    (hnext : Follows s.server.service next) : (s.put k next).Ready where
  tabs j := by
    change (Function.update s.tabs k next.1 j).Ready s.server.service
    by_cases hj : j = k
    · subst hj
      rw [Function.update_self]
      exact hnext.tab
    · rw [Function.update_of_ne hj]
      exact h.tabs j
  asked q hq := by
    rcases List.mem_append.mp hq with hq | hq
    · exact h.asked q hq
    · obtain ⟨w, hw, rfl⟩ := List.mem_map.mp hq
      exact hnext.asked w hw
  told := h.told

omit [DecidableEq P] in
theorem Shared.Ready.served (h : s.Ready) (r : Request) (m : Moment) :
    ({ s with server := (serveHTTP lib y web r m s.server).2 } : Shared P).Ready where
  tabs k := ⟨fun v hv => ((h.tabs k).active v hv).serve r m, (h.tabs k).loaded, (h.tabs k).base⟩
  asked q hq d shown hw := (h.asked q hq d shown hw).imp_right (fun hpast => hpast.serve r m)
  told x hx a ha v hv := (h.told x hx a ha v hv).serve r m

omit [DecidableEq P] in
theorem Shared.Ready.answer (h : s.Ready) (i : ℕ) (q : Asked P) (answer : Option Response)
    (ha : ∀ a ∈ answer, a.Shows s.server.service) : (s.answer i q answer).Ready := by
  refine ⟨h.tabs, fun q hq => h.asked q (List.mem_of_mem_eraseIdx hq), fun x hx => ?_⟩
  rcases List.mem_append.mp hx with hx | hx
  · exact h.told x hx
  · cases List.mem_singleton.mp hx
    exact ha

theorem shared_step (s : Shared P) (move : Move P) (h : s.Ready) :
    (s.step lib y web text load move).2.Ready := by
  unfold Shared.step
  split
  · exact h.put _ ((h.tabs _).act _)
  · split
    · exact h
    · next q hq =>
      apply (h.served _ _).answer
      intro a ha v hv
      cases ha
      exact ((serveHTTP_answers _).1 v hv).serve _ _
  · split
    · exact h
    · exact h.answer _ _ none (fun _ ha => by cases ha)
  · next i stale received =>
    split
    · exact h
    · next q answer hx =>
      have hrest : ({ s with told := s.told.eraseIdx i } : Shared P).Ready :=
        ⟨h.tabs, h.asked, fun x hx => h.told x (List.mem_of_mem_eraseIdx hx)⟩
      apply hrest.put
      apply (h.tabs q.tab).settle
      intro a ha
      split_ifs at ha
      · exact h.told _ (List.mem_of_getElem? hx) a ha
      · cases ha
  · exact h.served _ _

theorem shared_run (first : Server) (moves : List (Move P)) :
    (Shared.after lib y web text load first moves).Ready := by
  unfold Shared.after
  apply run_invariant (Shared.step lib y web text load) Shared.Ready shared_step
  refine ⟨fun k => ⟨fun v hv => (by cases hv), fun hd => (by cases hd), fun h => by cases h⟩, ?_, ?_⟩
  · intro q hq
    cases hq
  · intro x hx
    cases hx

end Tabs

/-! One tab signs in, has its draft checked and applies it. -/

/-- Hashes that are quick to evaluate: they tell texts of different lengths apart. -/
def lengthLibrary : Library :=
  { standardLibrary with
    sha256 := fun data => Vector.ofFn (fun i => UInt8.ofNat (data.length / 256^i.val))
    marshalJSON := fun j => j.text.map (fun t => t.map (fun _ => 0)) }

def tabsYaml : Yaml :=
  { sampleYaml with
    marshal := fun _ => []
    documents := fun data =>
      [some [prune (encodeConfig sampleYaml (sampleConfig (if data = [] then [] else sampleRules)))]] }

def tabsWeb : Web :=
  { sampleWeb with
    draft := fun body => if body.ended then some (⟨body.data.length, [⟨"api", []⟩]⟩, ⟨[], true⟩) else none }

def tabsText (d : TabDraft Unit) : Bytes := List.replicate d.base 0

def tabsStart : Option Server := (start lengthLibrary tabsYaml sampleBoot ⟨some ⟨1, [0], 1, none, []⟩, []⟩).1

def tabsBrowser : Browser := ⟨true, "faults.test", "", some "token"⟩

def tabsMoves : List (Move Unit) :=
  [.act 0 (.login []), .serve 0 tabsBrowser (sampleMoment .saved), .settle 0 false true,
    .serve 0 tabsBrowser (sampleMoment .saved), .settle 0 false true, .act 0 (.edit ()),
    .act 0 .validate, .serve 1 tabsBrowser (sampleMoment .saved), .settle 0 false true, .act 0 .apply]

def sampleTabs (first : Server) : Shared Unit :=
  Shared.after lengthLibrary tabsYaml tabsWeb tabsText (fun _ => ()) first tabsMoves

def tabsServed (first : Server) (q : Asked Unit) : Server :=
  ((sampleTabs first).serve lengthLibrary tabsYaml tabsWeb tabsText q tabsBrowser (sampleMoment .saved)).2

end Managed
end Faultline
