import Faultline.Executable
import Faultline.ManagedServer

/-! The managed server from its start on, one request after another. -/
namespace Faultline
namespace Managed

/-! The start. -/

inductive OpenError where
  | unusable (message : String)
  | bootstrap (e : LoadError)
  | storage (message : String)
  | unsupported
  | config (e : LoadError)

/-- What a start meets: the files, its own save, an error of the data directory, of its lock or of
the state file, and what `New` and `NewManaged` are given. -/
structure Boot where
  host : Host
  dir : String
  bootstrap : String
  unusable : Option String
  write : Write
  users : Option (OrdMap String User)
  runID : String
  now : ℕ

def bootState (y : Yaml) (now : ℕ) (d : Document) : State :=
  ⟨1, encode y d.config, 1, none, [⟨now, "operator", "bootstrap", 1, "ok"⟩]⟩

def emptyStore (dir : String) (file : DurableFile State) : Store := ⟨dir, ⟨0, [], 0, none, []⟩, false, file, []⟩

def Store.withState (s : Store) (st : State) : Store := { s with state := st }

/-- `Open`, with `load`. -/
def openStore (lib : Library) (y : Yaml) (b : Boot) (file : DurableFile State) :
    Except OpenError Document × Store :=
  let s := emptyStore b.dir file
  match b.unusable with
  | some message => (.error (.unusable message), s)
  | none =>
    match file.current with
    | none =>
      match load lib y b.host b.bootstrap with
      | .error e => (.error (.bootstrap e), s)
      | .ok d =>
        match s.save b.write.out (bootState y b.write.time d) with
        | (some e, s) => (.error (.storage e), s)
        | (none, s) => (.ok d, s)
    | some st =>
      let s := s.withState st
      if st.version ≠ 1 ∨ st.revision = 0 then (.error .unsupported, s)
      else match parse lib y b.host st.config (joinString b.dir "active.yaml") with
      | .error e => (.error (.config e), s)
      | .ok d => (.ok d, s)

/-- `New`. -/
def newServer (lib : Library) (b : Boot) (d : Document) (store : Store) : Except String Server :=
  if (b.users.getD ∅).size = 0 then
    .error "create at least one account with faultline user before managed startup"
  else match Service.newManaged lib (some d) store.state.revision b.runID b.now with
  | .error e => .error e.message
  | .ok service => .ok ⟨store, service, ∅, 0, 0⟩

/-- The start of the program: the server, or only what the start left in the file. -/
def start (lib : Library) (y : Yaml) (b : Boot) (file : DurableFile State) : Option Server × DurableFile State :=
  match openStore lib y b file with
  | (.error _, store) => (none, store.file)
  | (.ok d, store) =>
    match newServer lib b d store with
    | .error _ => (none, store.file)
    | .ok s => (some s, store.file)

/-- What `Open` did: it stopped before its save, its save failed, it made the first state or it found
one. -/
inductive OpenCase (lib : Library) (y : Yaml) (b : Boot) (file : DurableFile State) :
    Except OpenError Document × Store → Prop where
  | refused (e : OpenError) (store : Store) (hfile : store.file = file) (heffects : store.effects = []) :
      OpenCase lib y b file (.error e, store)
  | failed (d : Document) (e : OpenError) (hfile : file.current = none)
      (hload : load lib y b.host b.bootstrap = .ok d) :
      OpenCase lib y b file
        (.error e, ((emptyStore b.dir file).save b.write.out (bootState y b.write.time d)).2)
  | booted (d : Document) (store : Store) (hfile : file.current = none)
      (hload : load lib y b.host b.bootstrap = .ok d)
      (hsave : (emptyStore b.dir file).save b.write.out (bootState y b.write.time d) = (none, store)) :
      OpenCase lib y b file (.ok d, store)
  | resumed (st : State) (d : Document) (hfile : file.current = some st) (hversion : st.version = 1)
      (hrevision : st.revision ≠ 0)
      (hparse : parse lib y b.host st.config (joinString b.dir "active.yaml") = .ok d) :
      OpenCase lib y b file (.ok d, (emptyStore b.dir file).withState st)

theorem open_cases (lib : Library) (y : Yaml) (b : Boot) (file : DurableFile State) :
    OpenCase lib y b file (openStore lib y b file) := by
  unfold openStore
  simp only
  cases b.unusable with
  | some message => exact .refused _ _ rfl rfl
  | none =>
    cases hfile : file.current with
    | none =>
      simp only
      cases hload : load lib y b.host b.bootstrap with
      | error e => exact .refused _ _ rfl rfl
      | ok d =>
        simp only
        cases hsave : (emptyStore b.dir file).save b.write.out (bootState y b.write.time d) with
        | mk e store =>
          cases e with
          | none => exact .booted d store hfile hload hsave
          | some e =>
            have hfailed := OpenCase.failed d (.storage e) hfile hload
            rwa [hsave] at hfailed
    | some st =>
      simp only
      by_cases hbad : st.version ≠ 1 ∨ st.revision = 0
      · rw [if_pos hbad]
        exact .refused _ _ rfl rfl
      rw [if_neg hbad]
      obtain ⟨hversion, hrevision⟩ := not_or.mp hbad
      cases hparse : parse lib y b.host st.config (joinString b.dir "active.yaml") with
      | error e => exact .refused _ _ rfl rfl
      | ok d => exact .resumed st d hfile (not_not.mp hversion) hrevision hparse

/-! The store. -/

def Store.Known (s : Store) : Prop := s.poisoned = false → s.file.current = some s.state

@[simp] theorem note_state (s : Store) (e : Effect) : (s.note e).state = s.state := rfl

@[simp] theorem note_file (s : Store) (e : Effect) : (s.note e).file = s.file := rfl

@[simp] theorem note_poisoned (s : Store) (e : Effect) : (s.note e).poisoned = s.poisoned := rfl

@[simp] theorem note_dir (s : Store) (e : Effect) : (s.note e).dir = s.dir := rfl

theorem known_save (out : WriteOutcome) (next : State) (s : Store) (h : s.Known) :
    (s.save out next).2.Known := by
  have hcase := save_cases out next s
  revert hcase
  generalize s.save out next = result
  intro hcase
  cases hcase with
  | refused => exact h
  | failed => exact h
  | uncertain =>
    intro hfalse
    cases hfalse
  | saved =>
    intro _
    simp

theorem save_dir (out : WriteOutcome) (next : State) (s : Store) : (s.save out next).2.dir = s.dir := by
  have hcase := save_cases out next s
  revert hcase
  generalize s.save out next = result
  intro hcase
  cases hcase <;> rfl

/-! The server after its start. -/

theorem saved_of_save (out : WriteOutcome) (next : State) (s s' : Store) (h : s.save out next = (none, s')) :
    s.poisoned = false ∧ s' = { s with file := (s.file.rename next).sync, state := next }.note (.saved next) := by
  have hcase := save_cases out next s
  rw [h] at hcase
  cases hcase with
  | saved hawake => exact ⟨hawake, rfl⟩

structure Fresh (lib : Library) (y : Yaml) (b : Boot) (s : Server) : Prop where
  awake : s.store.poisoned = false
  known : s.store.Known
  dir : s.store.dir = b.dir
  sessions : s.sessions = ∅
  revision : s.service.active.info.revision = s.store.state.revision
  accepted : Accepted lib y b.host s.service.document

theorem newManaged_ok {lib : Library} {d : Document} {revision now : ℕ} {runID : String} {service : Service}
    (h : Service.newManaged lib (some d) revision runID now = .ok service) :
    service.active.info.revision = revision ∧ service.document = d := by
  unfold Service.newManaged Service.new at h
  cases hengine : Engine.new lib (some d) with
  | none => simp [hengine] at h
  | some engine =>
    simp only [hengine] at h
    split_ifs at h
    cases h
    exact ⟨rfl, rfl⟩

theorem start_fresh {lib : Library} {y : Yaml} {b : Boot} {file : DurableFile State} {s : Server}
    (h : (start lib y b file).1 = some s) : Fresh lib y b s := by
  unfold start at h
  have hcase := open_cases lib y b file
  cases hopen : openStore lib y b file with
  | mk outcome store =>
    rw [hopen] at h hcase
    cases outcome with
    | error e => cases h
    | ok d =>
      simp only [newServer] at h
      split_ifs at h
      cases hservice : Service.newManaged lib (some d) store.state.revision b.runID b.now with
      | error e =>
        rw [hservice] at h
        cases h
      | ok service =>
        rw [hservice] at h
        cases h
        obtain ⟨hrevision, rfl⟩ := newManaged_ok hservice
        cases hcase with
        | booted _ _ hfile hload hsave =>
          obtain ⟨-, rfl⟩ := saved_of_save _ _ _ _ hsave
          exact ⟨rfl, fun _ => by simp, rfl, rfl, hrevision, Or.inr ⟨_, hload⟩⟩
        | resumed st _ hfile hversion hnonzero hparse =>
          exact ⟨rfl, fun _ => hfile, rfl, rfl, hrevision, Or.inl ⟨_, _, hparse⟩⟩

/-! One request. -/

section Request
variable {lib : Library} {y : Yaml} {web : Web} {r : Request} {m : Moment}
  {Admits : Operation → Session → Prop} {service service' : Service} {store store' : Store}
  {answer : Response}

theorem apply_saves {actor : String} {d : Document} {base now : ℕ} {outcome : Except ServiceError Result}
    (h : service.applyRevision lib (persist y m actor) store (some d) base now = (outcome, service', store')) :
    store' = store ∨ ∃ result, store' = (store.save m.first.out (applied y store.state m.first.time actor d result)).2 := by
  have hcase := apply_cases lib (persist y m actor) service store (some d) (some base) now
  unfold Service.applyRevision at h
  rw [h] at hcase
  have hsaved (d' : Document) (result : Result) (e : Option String) (hd : some d = some d')
      (hp : callPersist (persist y m actor) d' result store = (e, store')) : ∃ result,
        store' = (store.save m.first.out (applied y store.state m.first.time actor d result)).2 := by
    cases hd
    exact ⟨result, (congrArg Prod.snd hp).symm⟩
  cases hcase with
  | refused e => exact Or.inl rfl
  | failed d' result e _ hd _ _ _ hp => exact Or.inr (hsaved d' result _ hd hp)
  | unchanged d' _ hd _ _ hp => exact Or.inr (hsaved d' _ _ hd hp)
  | changed d' _ _ hd _ _ _ _ hp => exact Or.inr (hsaved d' _ _ hd hp)

theorem apply_error {actor : String} {d : Document} {base now : ℕ} {e : ServiceError}
    (h : service.applyRevision lib (persist y m actor) store (some d) base now = (.error e, service', store')) :
    service' = service ∧ (store' = store ∨ ∃ result message,
      store.apply y m.first.time m.first.out actor d result = (some message, store') ∧
        (result = ⟨false, service.active.info⟩ ∧ documentEqual (some service.document) (some d) = true ∨
          result = ⟨true, nextInfo service.active.info now⟩ ∧
            documentEqual (some service.document) (some d) = false)) := by
  have hcase := apply_cases lib (persist y m actor) service store (some d) (some base) now
  unfold Service.applyRevision at h
  rw [h] at hcase
  cases hcase with
  | refused => exact ⟨rfl, Or.inl rfl⟩
  | failed d' result message _ hd _ hresult _ hp =>
    cases hd
    exact ⟨rfl, Or.inr ⟨result, message, hp, hresult⟩⟩

theorem Handled.store_rule {P : Store → Prop}
    (h : Handled lib y web r m Admits service store answer service' store') (hP : P store)
    (hsave : ∀ out next st, P st → P (st.save out next).2)
    (hnote : ∀ e st, (∀ saved, e ≠ .saved saved) → P st → P (st.note e)) : P store' := by
  have hnoteIf (changed : Bool) (e : Effect) (he : ∀ saved, e ≠ .saved saved) (st : Store) (hst : P st) :
      P (st.noteIf changed e) := by
    unfold Store.noteIf
    split_ifs
    · exact hnote e st he hst
    · exact hst
  have happly {actor : String} {d : Document} {base now : ℕ} {outcome : Except ServiceError Result}
      {service'' : Service} {store'' : Store} (hrun : service.applyRevision lib (persist y m actor) store
        (some d) base now = (outcome, service'', store'')) : P store'' := by
    rcases apply_saves hrun with rfl | ⟨result, rfl⟩
    · exact hP
    · exact hsave _ _ store hP
  cases h with
  | kept => exact hP
  | audited => exact hsave _ _ store hP
  | validated => exact hsave _ _ store hP
  | toggled op sess store' hadmits hop hsaved =>
    apply hnoteIf _ _ (fun _ he => by cases he)
    have hst := hsave m.first.out
      (appendAudit store.state m.first.time sess.name op.name "ok" service.active.info.revision) store hP
    unfold Store.audit at hsaved
    rwa [hsaved] at hst
  | applied sess draft d result service' store' hadmits hdraft hbase hdoc hrun =>
    exact hnoteIf _ _ (fun _ he => by cases he) _ (happly hrun)
  | uncertain sess draft d e _ _ _ hadmits hdraft hbase hdoc hrun => exact happly hrun
  | failed sess draft d e _ store' _ hadmits hdraft hbase hdoc hrun => exact hsave _ _ store' (happly hrun)

theorem Handled.known (h : Handled lib y web r m Admits service store answer service' store')
    (hknown : store.Known) : store'.Known :=
  h.store_rule hknown known_save (fun _ _ _ hst => hst)

theorem Handled.dir (h : Handled lib y web r m Admits service store answer service' store') :
    store'.dir = store.dir :=
  h.store_rule (P := fun st => st.dir = store.dir) rfl
    (fun out next st hst => (save_dir out next st).trans hst) (fun _ _ _ hst => hst)

@[simp] theorem withInfo_document (s : Service) (info : Info) : (s.withInfo info).document = s.document := rfl

@[simp] theorem push_document (s : Service) (d : Document) (engine : Engine) (info : Info) :
    (s.push d engine info).document = d := by
  simp [Service.push, Service.document]

@[simp] theorem setEnabled_revision (s : Service) (enabled : Bool) (now : ℕ) :
    (s.setEnabled enabled now).2.active.info.revision = s.active.info.revision := by
  unfold Service.setEnabled
  simp only
  split_ifs <;> rfl

@[simp] theorem setEnabled_document (s : Service) (enabled : Bool) (now : ℕ) :
    (s.setEnabled enabled now).2.document = s.document := by
  unfold Service.setEnabled
  simp only
  split_ifs <;> rfl

theorem apply_ok {actor : String} {d : Document} {base now : ℕ} {result : Result}
    (h : service.applyRevision lib (persist y m actor) store (some d) base now = (.ok result, service', store')) :
    d.valid = true ∧ store.apply y m.first.time m.first.out actor d result = (none, store') ∧
      (result = ⟨false, service.active.info⟩ ∧ service' = service ∧
          documentEqual (some service.document) (some d) = true ∨
        result = ⟨true, nextInfo service.active.info now⟩ ∧ base = service.active.info.revision ∧
          documentEqual (some service.document) (some d) = false ∧
          ∃ engine, service' = service.push d engine (nextInfo service.active.info now)) := by
  have hcase := apply_cases lib (persist y m actor) service store (some d) (some base) now
  unfold Service.applyRevision at h
  rw [h] at hcase
  cases hcase with
  | unchanged d' _ hd hvalid heq hp =>
    cases hd
    exact ⟨hvalid, hp, Or.inl ⟨rfl, rfl, heq⟩⟩
  | changed d' engine _ hd hvalid hengine hne hexpected hp =>
    cases hd
    have hbase : base = service.active.info.revision := by simpa using hexpected
    exact ⟨hvalid, hp, Or.inr ⟨rfl, hbase, hne, engine, rfl⟩⟩

theorem Handled.service_cases (h : Handled lib y web r m Admits service store answer service' store') :
    service' = service ∨ (∃ enabled, service' = (service.setEnabled enabled m.changed).2) ∨
      ∃ draft d engine, document lib y m.host store.dir service.document.config draft = .ok d ∧
        service' = service.push d engine (nextInfo service.active.info m.changed) := by
  cases h with
  | kept => exact Or.inl rfl
  | audited => exact Or.inl rfl
  | validated => exact Or.inl rfl
  | toggled op => exact Or.inr (Or.inl ⟨_, rfl⟩)
  | applied sess draft d result _ _ hadmits hdraft hbase hdoc hrun =>
    rcases (apply_ok hrun).2.2 with ⟨-, hsame, -⟩ | ⟨-, -, -, engine, hpush⟩
    · exact Or.inl hsame
    · exact Or.inr (Or.inr ⟨draft, d, engine, hdoc, hpush⟩)
  | uncertain _ _ _ _ _ _ _ _ _ _ _ hrun => exact Or.inl (apply_error hrun).1
  | failed _ _ _ _ _ _ _ _ _ _ _ hrun => exact Or.inl (apply_error hrun).1

theorem Handled.revision (h : Handled lib y web r m Admits service store answer service' store') :
    service.active.info.revision < service'.active.info.revision ∨
      service'.active.info.revision = service.active.info.revision ∧ service'.document = service.document := by
  rcases h.service_cases with rfl | ⟨enabled, rfl⟩ | ⟨draft, d, engine, -, rfl⟩
  · exact Or.inr ⟨rfl, rfl⟩
  · exact Or.inr ⟨setEnabled_revision _ _ _, setEnabled_document _ _ _⟩
  · exact Or.inl (Nat.lt_succ_self _)

end Request

/-! Runs. -/

structure Served where
  request : Request
  moment : Moment
  response : Response

section Runs
variable (lib : Library) (y : Yaml) (web : Web)

def serveNext (run : List Served × Server) (e : Request × Moment) : List Served × Server :=
  (run.1 ++ [⟨e.1, e.2, (serveHTTP lib y web e.1 e.2 run.2).1⟩], (serveHTTP lib y web e.1 e.2 run.2).2)

/-- The requests that were served, oldest first, and the server after them. -/
def serveAll (s : Server) (events : List (Request × Moment)) : List Served × Server :=
  events.foldl (serveNext lib y web) ([], s)

theorem serveAll_snoc (s : Server) (events : List (Request × Moment)) (e : Request × Moment) :
    serveAll lib y web s (events ++ [e]) = serveNext lib y web (serveAll lib y web s events) e := by
  simp [serveAll, List.foldl_append]

/-- What every request keeps holds after a run. -/
theorem serveAll_rule {P : List Served → Server → Prop} (s : Server) (hstart : P [] s)
    (hstep : ∀ history s r m, P history s →
      P (history ++ [⟨r, m, (serveHTTP lib y web r m s).1⟩]) (serveHTTP lib y web r m s).2)
    (events : List (Request × Moment)) :
    P (serveAll lib y web s events).1 (serveAll lib y web s events).2 := by
  induction events using List.reverseRecOn with
  | nil => exact hstart
  | append_singleton events e ih =>
    rw [serveAll_snoc]
    exact hstep _ _ e.1 e.2 ih

variable {lib y web}

theorem serveAll_known (s : Server) (hs : s.store.Known) (events : List (Request × Moment)) :
    (serveAll lib y web s events).2.store.Known :=
  serveAll_rule lib y web (P := fun _ s => s.store.Known) s hs
    (fun _ s _ _ hs => (serveHTTP_handled s).known hs) events

theorem serveAll_dir (s : Server) (events : List (Request × Moment)) :
    (serveAll lib y web s events).2.store.dir = s.store.dir :=
  serveAll_rule lib y web (P := fun _ s' => s'.store.dir = s.store.dir) s rfl
    (fun _ s' _ _ hs => (serveHTTP_handled s').dir.trans hs) events

theorem serveAll_accepted (s : Server) (hs : ∃ host, Accepted lib y host s.service.document)
    (events : List (Request × Moment)) :
    ∃ host, Accepted lib y host (serveAll lib y web s events).2.service.document := by
  apply serveAll_rule lib y web (P := fun _ s => ∃ host, Accepted lib y host s.service.document) s hs
  rintro _ s r m ⟨host, hs⟩
  rcases (@serveHTTP_handled lib y web r m s).service_cases with
    h | ⟨enabled, h⟩ | ⟨draft, d, engine, hdoc, h⟩
  · exact ⟨host, h ▸ hs⟩
  · exact ⟨host, by rw [h, setEnabled_document]; exact hs⟩
  · exact ⟨m.host, by rw [h, push_document]; exact document_parsed hdoc⟩

theorem serveAll_revision (s : Server) (events : List (Request × Moment)) :
    s.service.active.info.revision < (serveAll lib y web s events).2.service.active.info.revision ∨
      (serveAll lib y web s events).2.service.active.info.revision = s.service.active.info.revision ∧
        (serveAll lib y web s events).2.service.document = s.service.document := by
  apply serveAll_rule lib y web (P := fun _ s' =>
    s.service.active.info.revision < s'.service.active.info.revision ∨
      s'.service.active.info.revision = s.service.active.info.revision ∧
        s'.service.document = s.service.document) s (Or.inr ⟨rfl, rfl⟩)
  intro _ s' r m hs'
  rcases (@serveHTTP_handled lib y web r m s').revision with h | ⟨h, hdoc⟩
  · rcases hs' with hs' | ⟨hs', -⟩
    · exact Or.inl (hs'.trans h)
    · exact Or.inl (hs' ▸ h)
  · rw [h, hdoc]
    exact hs'

end Runs

/-! A server with one account, and requests of its user. -/

def sampleDraft : Draft := ⟨1, [⟨"api", []⟩]⟩

def sampleWeb : Web where
  draft _ := some (sampleDraft, ⟨[], true⟩)
  credentials _ := some (⟨"ann", "correct horse"⟩, ⟨[], true⟩)
  eof body := body.data.isEmpty && body.ended
  pbkdf2 password _ := bytesOf password

def sampleUsers : OrdMap String User :=
  OrdMap.empty.insert "ann" ⟨"editor", "", passwordHash sampleWeb "correct horse" (List.replicate 16 0)⟩

def sampleBoot : Boot :=
  ⟨sampleHost, "/var/faultline", "/etc/faultline.yaml", none, ⟨0, .saved⟩, some sampleUsers, "run", 0⟩

def sampleFile : DurableFile State := ⟨some ⟨1, sampleText, 1, none, []⟩, []⟩

def sampleRequest (path : String) : Request :=
  ⟨true, "POST", "faults.test", path, "", some "token", "csrf", "application/json", ⟨[], true⟩⟩

def sampleMoment (out : WriteOutcome) : Moment :=
  ⟨0, sampleHost, some sampleUsers, ⟨0, out⟩, ⟨0, out⟩, 0, "token", "csrf"⟩

def sampleLogin : Request × Moment := (sampleRequest "/api/login", sampleMoment .saved)

theorem sample_started : ∃ first, (start standardLibrary sampleYaml sampleBoot sampleFile).1 = some first :=
  Option.isSome_iff_exists.mp (by decide +kernel)

end Managed
end Faultline
