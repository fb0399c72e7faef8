import Faultline.ManagedRuns

/-! Drafts sent to the managed server. -/
namespace Faultline
namespace Managed

/-! What is kept in the file, the audit log apart. -/

def Store.persisted (s : Store) : Option (Bytes × ℕ × Option Result) :=
  s.file.current.map (fun st => (st.config, st.revision, st.lastApply))

theorem audit_persisted (now : ℕ) (out : WriteOutcome) (actor operation outcome : String) (revision : ℕ)
    (s : Store) (h : s.Known) :
    (s.audit now out actor operation outcome revision).2.persisted = s.persisted := by
  unfold Store.audit
  have hcase := save_cases out (appendAudit s.state now actor operation outcome revision) s
  revert hcase
  generalize s.save out (appendAudit s.state now actor operation outcome revision) = result
  intro hcase
  cases hcase with
  | refused => rfl
  | failed => rfl
  | uncertain message hawake => simp [Store.persisted, Store.note, h hawake, appendAudit]
  | saved hawake => simp [Store.persisted, Store.note, h hawake, appendAudit]

/-! An apply request that passes the checks. -/

section Forward
variable {lib : Library} {y : Yaml} {web : Web} {r : Request} {m : Moment} {s : Server} {sess : Session}

theorem operation_apply (path : String) (h : operation path = .apply) : path = "/api/apply" := by
  unfold operation at h
  split_ifs at h
  assumption

theorem session_admitted {op : Operation} (h : Admitted r m s op sess) :
    (s.expire m.now).session r m = some sess := by
  obtain ⟨key, hkey, hget⟩ := h.session
  obtain ⟨users, u, husers, hu, hhash, hrole⟩ := h.account
  have hfound : r.cookie.bind (s.expire m.now).sessions.get? = some sess := by
    rw [hkey, Option.bind_some]
    exact (expire_get? m.now s key sess).mpr ⟨hget, h.unexpired⟩
  unfold Server.session
  simp [hfound, husers, hu, h.named, hhash, hrole]

theorem serveHTTP_apply {draft : Draft} (h : Admitted r m s .apply sess)
    (hdraft : decode web web.draft r = .ok draft) :
    serveHTTP lib y web r m s = (s.expire m.now).serveDraft lib y m sess .apply draft := by
  have hpath := operation_apply r.path h.operation
  have horigin : ¬ (r.method ≠ "GET" ∧ r.origin ≠ "" ∧ r.origin ≠ "https://" ++ r.host) := by
    rintro ⟨-, hempty, hhost⟩
    exact h.origin.elim hempty hhost
  have hasset : isAsset r.path = false := by
    rw [hpath]
    decide
  unfold serveHTTP
  rw [if_neg (by simp [h.tls]), if_neg horigin, if_neg (by simp [hasset]), if_neg (by simp [h.awake])]
  simp only [hpath, session_admitted h]
  rw [if_neg (by simp)]
  unfold Server.serveSession Server.serveOperation
  simp [hpath, h.post, h.csrf, h.editor, operation, hdraft]

theorem serveHTTP_uncertain {draft : Draft} {d : Document} {message : String} (h : Admitted r m s .apply sess)
    (hdraft : decode web web.draft r = .ok draft) (hbase : draft.baseRevision = s.service.active.info.revision)
    (hdoc : document lib y m.host s.store.dir s.service.document.config draft = .ok d) (hvalid : d.valid = true)
    (hcompatible : restartCompatible (some s.service.document) (some d) = true)
    (hout : m.first.out = .uncertain message) : ∃ result,
    (serveHTTP lib y web r m s).2.store =
      (s.store.save m.first.out (applied y s.store.state m.first.time sess.name d result)).2 := by
  have hexpired : (s.expire m.now).service = s.service ∧ (s.expire m.now).store = s.store := ⟨rfl, rfl⟩
  rw [serveHTTP_apply h hdraft]
  unfold Server.serveDraft Server.serveApply
  rw [hexpired.1, hexpired.2, if_neg (not_not.mpr hbase), hdoc, hbase]
  have hengine : ∃ engine, Engine.new lib (some d) = some engine := by simp [Engine.new, hvalid]
  obtain ⟨engine, hengine⟩ := hengine
  have hpersist (result : Result) : callPersist (persist y m sess.name) d result s.store =
      (some ("persist managed state: " ++ message),
        (s.store.save m.first.out (applied y s.store.state m.first.time sess.name d result)).2) := by
    simp [callPersist, persist, Store.apply, Store.save, hout, h.awake]
  have hpoisoned (result : Result) :
      (s.store.save m.first.out (applied y s.store.state m.first.time sess.name d result)).2.poisoned = true := by
    simp [Store.save, hout, h.awake]
  by_cases hequal : documentEqual (some s.service.document) (some d) = true
  · refine ⟨⟨false, s.service.active.info⟩, ?_⟩
    simp [Service.applyRevision, Service.apply, Service.publish, hvalid, hcompatible, hequal, hpersist, hpoisoned]
  · refine ⟨⟨true, nextInfo s.service.active.info m.changed⟩, ?_⟩
    simp [Service.applyRevision, Service.apply, Service.publish, hvalid, hcompatible, hequal, hengine, hpersist,
      hpoisoned]

end Forward

/-! Why an apply may fail. -/

/-- The save of the request did not succeed, or its directory cannot be resolved. -/
def StorageFailed (m : Moment) (s : Server) : Prop :=
  m.first.out ≠ .saved ∨ m.host.abs (joinString s.store.dir "active.yaml") = none

theorem applyRevision_saved (lib : Library) (y : Yaml) (m : Moment) (actor : String) (service : Service)
    (store : Store) (d : Document) (now : ℕ) (hawake : store.poisoned = false) (hout : m.first.out = .saved)
    (hvalid : d.valid = true) (hcompatible : restartCompatible (some service.document) (some d) = true) :
    ∃ result service' store', service.applyRevision lib (persist y m actor) store (some d)
      service.active.info.revision now = (.ok result, service', store') := by
  have hpersist (result : Result) : ∃ store', callPersist (persist y m actor) d result store = (none, store') := by
    have hnone : (callPersist (persist y m actor) d result store).1 = none := by
      simp only [callPersist, persist, Store.apply, Store.save, hawake, hout]
      rfl
    exact ⟨_, Prod.ext hnone rfl⟩
  have hengine : ∃ engine, Engine.new lib (some d) = some engine := by simp [Engine.new, hvalid]
  obtain ⟨engine, hengine⟩ := hengine
  unfold Service.applyRevision Service.apply Service.publish
  simp only [hvalid, hcompatible, ne_eq, not_true_eq_false, and_false, if_false, Bool.true_eq_false]
  by_cases hequal : documentEqual (some service.document) (some d) = true
  · obtain ⟨store', hstore⟩ := hpersist ⟨false, service.active.info⟩
    simp only [hequal, if_true, hstore]
    exact ⟨_, _, _, rfl⟩
  · obtain ⟨store', hstore⟩ := hpersist ⟨true, nextInfo service.active.info now⟩
    simp only [hequal, hengine, hstore]
    exact ⟨_, _, _, rfl⟩

/-! The law. -/

structure DraftLaw (lib : Library) (y : Yaml) (web : Web) (host : Host) (s : Server) : Prop where
  /-- Only rules change. -/
  rules : ∀ host' d e, (∀ f ∈ s.service.document.config.tlsFiles, host'.readFile f = host.readFile f) →
    document lib y host' s.store.dir s.service.document.config d = .ok e → DraftAccepted s.service.document d e
  /-- A draft without a document changes nothing. -/
  rejected : ∀ r m d e, operation r.path = .apply ∨ operation r.path = .validate →
    decode web web.draft r = .ok d →
    document lib y m.host s.store.dir s.service.document.config d = .error e →
    (serveHTTP lib y web r m s).2.service = s.service ∧
      (serveHTTP lib y web r m s).2.store.persisted = s.store.persisted
  /-- A draft that was found valid can be applied at its base revision, the storage permitting. -/
  applies : ∀ v n d, (serveHTTP lib y web v n s).1.reply = .valid d.baseRevision →
    decode web web.draft v = .ok d → ∀ events s',
    (serveAll lib y web (serveHTTP lib y web v n s).2 events).2 = s' →
    ∀ r m sess, Admitted r m s' .apply sess → decode web web.draft r = .ok d →
    d.baseRevision = s'.service.active.info.revision →
    (∀ f ∈ s.service.document.config.tlsFiles, n.host.readFile f = host.readFile f ∧
      m.host.readFile f = host.readFile f) →
    (∃ result, (serveHTTP lib y web r m s').1.reply = .result result) ∨ StorageFailed m s'

section Law
variable {lib : Library} {y : Yaml} {web : Web} {host : Host} {s : Server}

theorem draft_rejected (hknown : s.store.Known) (r : Request) (m : Moment) (d : Draft) (e : DraftError)
    (hop : operation r.path = .apply ∨ operation r.path = .validate)
    (hdraft : decode web web.draft r = .ok d)
    (hdoc : document lib y m.host s.store.dir s.service.document.config d = .error e) :
    (serveHTTP lib y web r m s).2.service = s.service ∧
      (serveHTTP lib y web r m s).2.store.persisted = s.store.persisted := by
  have hhandled := @serveHTTP_handled lib y web r m s
  revert hhandled
  generalize (serveHTTP lib y web r m s).1 = answer
  generalize (serveHTTP lib y web r m s).2.service = service'
  generalize (serveHTTP lib y web r m s).2.store = store'
  intro hhandled
  -- no document of this draft can have been used
  have habsurd {draft : Draft} {d' : Document} (hdraft' : decode web web.draft r = .ok draft)
      (hdoc' : document lib y m.host s.store.dir s.service.document.config draft = .ok d') : False := by
    cases hdraft.symm.trans hdraft'
    cases hdoc.symm.trans hdoc'
  cases hhandled with
  | kept => exact ⟨rfl, rfl⟩
  | audited => exact ⟨rfl, audit_persisted _ _ _ _ _ _ _ hknown⟩
  | validated => exact ⟨rfl, audit_persisted _ _ _ _ _ _ _ hknown⟩
  | toggled op sess _ hadmits htoggle =>
    rw [hadmits.operation] at hop
    rcases htoggle with rfl | rfl <;> simp at hop
  | applied _ _ _ _ _ _ _ hdraft' _ hdoc' => exact (habsurd hdraft' hdoc').elim
  | uncertain _ _ _ _ _ _ _ _ hdraft' _ hdoc' => exact (habsurd hdraft' hdoc').elim
  | failed _ _ _ _ _ _ _ _ hdraft' _ hdoc' => exact (habsurd hdraft' hdoc').elim

theorem valid_document (v : Request) (n : Moment) (d : Draft)
    (hvalid : (serveHTTP lib y web v n s).1.reply = .valid d.baseRevision)
    (hdraft : decode web web.draft v = .ok d) :
    d.baseRevision = s.service.active.info.revision ∧
      (serveHTTP lib y web v n s).2.service = s.service ∧
      ∃ e, document lib y n.host s.store.dir s.service.document.config d = .ok e := by
  have hhandled := @serveHTTP_handled lib y web v n s
  revert hhandled hvalid
  generalize (serveHTTP lib y web v n s).1 = answer
  generalize (serveHTTP lib y web v n s).2.service = service'
  generalize (serveHTTP lib y web v n s).2.store = store'
  intro hvalid hhandled
  have hplain : answer.reply.plain = false := by
    rw [hvalid]
    rfl
  cases hhandled with
  | kept _ hreply => cases hreply.symm.trans hplain
  | audited _ _ _ _ hreply => cases hreply.symm.trans hplain
  | validated sess draft e hadmits hdraft' hbase hdoc =>
    cases hdraft.symm.trans hdraft'
    exact ⟨hbase, rfl, e, hdoc⟩
  | toggled => cases hvalid
  | applied => cases hvalid
  | uncertain _ _ _ _ _ _ _ _ _ _ _ _ hreply => cases hreply.symm.trans hplain
  | failed _ _ _ _ _ _ _ _ _ _ _ _ hreply => cases hreply.symm.trans hplain

theorem draft_applies (hy : y.Faithful) (hactive : Accepted lib y host s.service.document)
    (v : Request) (n : Moment) (d : Draft)
    (hvalid : (serveHTTP lib y web v n s).1.reply = .valid d.baseRevision)
    (hdraft : decode web web.draft v = .ok d) (events : List (Request × Moment)) (s' : Server)
    (hs' : (serveAll lib y web (serveHTTP lib y web v n s).2 events).2 = s') (r : Request) (m : Moment)
    (sess : Session) (hadmitted : Admitted r m s' .apply sess) (hdraft' : decode web web.draft r = .ok d)
    (hbase : d.baseRevision = s'.service.active.info.revision)
    (hfiles : ∀ f ∈ s.service.document.config.tlsFiles, n.host.readFile f = host.readFile f ∧
      m.host.readFile f = host.readFile f) :
    (∃ result, (serveHTTP lib y web r m s').1.reply = .result result) ∨ StorageFailed m s' := by
  obtain ⟨hfirst, hservice, e, hdoc⟩ := valid_document v n d hvalid hdraft
  -- the active document is still the one that the draft was checked against
  have hsame : s'.service.document = s.service.document := by
    have hrun := @serveAll_revision lib y web (serveHTTP lib y web v n s).2 events
    rw [hs', hservice, ← hfirst, ← hbase] at hrun
    rcases hrun with h | ⟨-, h⟩
    · exact absurd h (lt_irrefl _)
    · exact h
  have hdir : s'.store.dir = s.store.dir := by
    rw [← hs', serveAll_dir]
    exact (serveHTTP_handled s).dir
  by_cases hfailed : StorageFailed m s'
  · exact Or.inr hfailed
  obtain ⟨hout, habs⟩ := not_or.mp hfailed
  have hdoc' : document lib y m.host s'.store.dir s'.service.document.config d = .ok e := by
    rw [hsame, hdir]
    rw [hdir] at habs
    exact document_again hy hactive.normal (fun f hf => (hfiles f hf).1) (fun f hf => (hfiles f hf).2)
      (Option.isSome_iff_ne_none.mpr habs) hdoc
  have haccepted := document_accepted hy hactive.normal (fun f hf => (hfiles f hf).1) hdoc
  left
  rw [serveHTTP_apply hadmitted hdraft']
  obtain ⟨result, service', store', hrun⟩ := applyRevision_saved lib y m sess.name s'.service s'.store e
    m.changed hadmitted.awake (not_not.mp hout) haccepted.valid (hsame ▸ haccepted.compatible)
  refine ⟨result, ?_⟩
  unfold Server.serveDraft Server.serveApply
  have hexpired : (s'.expire m.now).service = s'.service ∧ (s'.expire m.now).store = s'.store := ⟨rfl, rfl⟩
  rw [hexpired.1, hexpired.2, if_neg (not_not.mpr hbase), hdoc', hbase]
  simp [hrun]

theorem draft_law (hy : y.Faithful) (hknown : s.store.Known)
    (hactive : Accepted lib y host s.service.document) : DraftLaw lib y web host s where
  rules _ _ _ hfiles h := document_accepted hy hactive.normal hfiles h
  rejected := draft_rejected hknown
  applies := draft_applies hy hactive

end Law

/-- A draft changes nothing but rules, after any requests to a server. -/
theorem draft_changes_rules (lib : Library) (y : Yaml) (web : Web) (hy : y.Faithful) (b : Boot)
    (file : DurableFile State) (first : Server) (hstart : (start lib y b file).1 = some first)
    (events : List (Request × Moment)) :
    (∃ host, Accepted lib y host (serveAll lib y web first events).2.service.document) ∧
      ∀ host, Accepted lib y host (serveAll lib y web first events).2.service.document →
        DraftLaw lib y web host (serveAll lib y web first events).2 := by
  have hfresh := start_fresh hstart
  refine ⟨serveAll_accepted first ⟨b.host, hfresh.accepted⟩ events, ?_⟩
  intro host hactive
  exact draft_law hy (serveAll_known first hfresh.known events) hactive

theorem draft_changes_rules_sample : ∃ first,
    (start standardLibrary sampleYaml sampleBoot sampleFile).1 = some first ∧
    (∃ host, Accepted standardLibrary sampleYaml host
      (serveAll standardLibrary sampleYaml sampleWeb first [sampleLogin]).2.service.document) ∧
    ∀ host, Accepted standardLibrary sampleYaml host
        (serveAll standardLibrary sampleYaml sampleWeb first [sampleLogin]).2.service.document →
      DraftLaw standardLibrary sampleYaml sampleWeb host
        (serveAll standardLibrary sampleYaml sampleWeb first [sampleLogin]).2 := by
  obtain ⟨first, hfirst⟩ := sample_started
  have hfaithful : sampleYaml.Faithful := standardYaml_faithful _ _ (by decide +kernel)
  exact ⟨first, hfirst,
    draft_changes_rules standardLibrary sampleYaml sampleWeb hfaithful sampleBoot sampleFile first hfirst
      [sampleLogin]⟩

end Managed
end Faultline
