import Faultline.ConfigValidate

/-! What an accepted rule looks like, and that checking it again changes nothing. -/
namespace Faultline

/-- A selector that `validateSelector` accepts and leaves as it is. -/
structure SelectorValid (s : Selector) : Prop where
  probability : ∀ p, s.probability = some p → p.isNaN = false ∧ p.isInf = false ∧
    p.lt Float64.zero = false ∧ Float64.one.lt p = false ∧ (p.eq Float64.zero → p = Float64.zero)
  nth : s.nth ≠ some 0
  every : s.every ≠ some 0
  one : s.probability.isSome.toNat + s.nth.isSome.toNat + s.every.isSome.toNat = 1

theorem validateSelector_valid (s t : Selector) (path : String)
    (h : validateSelector s path = .ok t) : SelectorValid t := by
  simp only [validateSelector, reject_bind_eq_ok, pure_eq_ok, Decidable.not_not] at h
  obtain ⟨hp, hn, he, hone, rfl⟩ := h
  refine ⟨?_, hn, he, by simpa using hone⟩
  intro p hsome
  replace hsome : s.probability.map (fun p => if p.eq Float64.zero then Float64.zero else p) =
    some p := hsome
  rw [hsome] at hp
  have hrange : p.isNaN = false ∧ p.isInf = false ∧ p.lt Float64.zero = false ∧
      Float64.one.lt p = false := by simpa [and_assoc] using hp
  refine ⟨hrange.1, hrange.2.1, hrange.2.2.1, hrange.2.2.2, ?_⟩
  obtain ⟨q, -, hq⟩ := Option.map_eq_some_iff.mp hsome
  intro hzero
  by_cases hqz : q.eq Float64.zero = true
  · rw [← hq, if_pos hqz]
  · rw [if_neg hqz] at hq
    exact absurd (hq ▸ hzero) hqz

theorem validateSelector_of_valid (s : Selector) (path : String) (h : SelectorValid s) :
    validateSelector s path = .ok s := by
  have hmap : s.probability.map (fun p => if p.eq Float64.zero then Float64.zero else p) =
      s.probability := by
    cases hs : s.probability with
    | none => rfl
    | some p =>
      obtain ⟨-, -, -, -, hz⟩ := h.probability p hs
      by_cases hp : p.eq Float64.zero = true
      · rw [Option.map_some, if_pos hp, hz hp]
      · rw [Option.map_some, if_neg hp]
  simp only [validateSelector, reject_bind_eq_ok, pure_eq_ok, Decidable.not_not, hmap]
  refine ⟨?_, h.nth, h.every, h.one, trivial⟩
  cases hs : s.probability with
  | none => simp
  | some p =>
    obtain ⟨h1, h2, h3, h4, -⟩ := h.probability p hs
    simp [h1, h2, h3, h4]

theorem validateFault_path (f : Fault) (path path' : String) (h : validateFault f path = .ok ()) :
    validateFault f path' = .ok () := by
  have haction (u : Unit) (ha : validateAction f path = .ok u) : validateAction f path' = .ok u := by
    simp only [validateAction, ite_eq_iff, reject_bind_eq_ok, reject_eq_ok] at ha ⊢
    exact ha
  rw [validateFault, reject_bind_eq_ok, reject_bind_eq_ok, bind_eq_ok] at h ⊢
  obtain ⟨h1, h2, u, ha, hrest⟩ := h
  refine ⟨h1, h2, u, haction u ha, ?_⟩
  simp only [reject_bind_eq_ok, reject_eq_ok] at hrest ⊢
  exact hrest

theorem validateTCPAction_path (f : Fault) (path path' : String)
    (h : validateTCPAction f path = .ok ()) : validateTCPAction f path' = .ok () := by
  simp only [validateTCPAction, ite_eq_iff, reject_eq_ok, invalid_ne_ok, and_false, or_false] at h ⊢
  exact h

theorem lowerString_idem (s : String) : lowerString (lowerString s) = lowerString s := by
  simp [lowerString, lower_idem]

theorem token_lowerString (s : String) (h : token s = true) : token (lowerString s) = true := by
  have hchar (c : Char) : (isAlnum c.toLower || c.toLower ∈ "!#$%&'*+-.^_`|~".toList) =
      (isAlnum c || c ∈ "!#$%&'*+-.^_`|~".toList) := by
    refine char_ascii (fun c => (isAlnum c.toLower || c.toLower ∈ "!#$%&'*+-.^_`|~".toList) =
      (isAlnum c || c ∈ "!#$%&'*+-.^_`|~".toList)) (by decide +kernel) (fun c hc => ?_) c
    rw [toLower_of_ge c hc]
  simp only [token, Bool.and_eq_true, decide_eq_true_eq, List.all_eq_true] at h ⊢
  refine ⟨fun he => h.1 ?_, fun c hc => ?_⟩
  · have hl : lower s.toList = [] := by
      have := congrArg String.toList he
      simpa [lowerString] using this
    exact String.toList_inj.mp (by simpa using hl)
  · rw [lowerString, String.toList_ofList, lower, List.mem_map] at hc
    obtain ⟨d, hd, rfl⟩ := hc
    rw [hchar d]
    exact h.2 d hd

/-- A header entry as `validateHeaders` leaves it. -/
def HeaderValid (e : String × String) : Prop :=
  token e.1 = true ∧ containsAny e.2 "\r\n\x00" = false ∧ lowerString e.1 = e.1

theorem validateHeaders_valid (path : String) (es : List (String × String))
    (headers result : OrdMap String String) (h : validateHeaders path es headers = .ok result)
    (hv : ∀ e ∈ headers.entries, HeaderValid e) : ∀ e ∈ result.entries, HeaderValid e := by
  induction es generalizing headers with
  | nil =>
    cases h
    exact hv
  | cons e es ih =>
    obtain ⟨name, value⟩ := e
    simp only [validateHeaders, reject_bind_eq_ok, not_or, Decidable.not_not] at h
    obtain ⟨⟨htoken, hvalue⟩, -, hrest⟩ := h
    refine ih _ hrest (fun e he => ?_)
    rcases OrdMap.mem_insertEntry _ _ _ e he with rfl | he
    · exact ⟨token_lowerString name htoken, by simpa using hvalue, lowerString_idem name⟩
    · exact hv e he

theorem validateHeaders_append (path : String) (es : List (String × String))
    (headers : OrdMap String String) (hv : ∀ e ∈ es, HeaderValid e)
    (hs : es.Pairwise (fun a b => a.1 < b.1)) (hlt : ∀ a ∈ headers.entries, ∀ e ∈ es, a.1 < e.1) :
    validateHeaders path es headers = .ok (es.foldl (fun acc e => acc.insert e.1 e.2) headers) := by
  induction es generalizing headers with
  | nil => rfl
  | cons e es ih =>
    obtain ⟨htoken, hvalue, hlower⟩ := hv e List.mem_cons_self
    obtain ⟨he, hes⟩ := List.pairwise_cons.mp hs
    have hnew : headers.contains e.1 = false := by
      rw [Bool.eq_false_iff]
      intro hc
      obtain ⟨v, hv⟩ := Option.isSome_iff_exists.mp hc
      have hmem := (OrdMap.get?_eq_some_iff headers e.1 v).mp hv
      exact lt_irrefl _ (hlt _ hmem e List.mem_cons_self)
    simp only [validateHeaders, reject_bind_eq_ok, hlower, hnew, htoken, hvalue, List.foldl_cons]
    refine ⟨by simp, by simp, ih _ (fun d hd => hv d (List.mem_cons_of_mem e hd)) hes ?_⟩
    intro a ha d hd
    rcases OrdMap.mem_insertEntry _ _ _ a ha with rfl | ha
    · exact he d hd
    · exact hlt a ha d (List.mem_cons_of_mem e hd)

theorem validateHeaders_of_valid (path : String) (headers : OrdMap String String)
    (hv : ∀ e ∈ headers.entries, HeaderValid e) :
    validateHeaders path headers.entries ∅ = .ok headers := by
  rw [validateHeaders_append path headers.entries ∅ hv headers.sorted (fun _ ha => by cases ha),
    OrdMap.foldl_insert_entries]

/-- The rule that is read back after its header map was printed: a nil map has
become an empty one. -/
def Rule.fill (r : Rule) : Rule :=
  { r with matcher := { r.matcher with headers := some (r.matcher.headers.getD ∅) } }

theorem validateFault_body (f : Fault) (path path' : String) (body : Option String)
    (h : validateFault f path = .ok ()) (ha : f.action = "respond") :
    validateFault { f with body := body } path' = .ok () := by
  have hf := validateFault_path f path path' h
  rw [validateFault, reject_bind_eq_ok, reject_bind_eq_ok, bind_eq_ok] at hf ⊢
  obtain ⟨h1, h2, u, haction, hrest⟩ := hf
  refine ⟨h1, h2, u, haction, ?_⟩
  simp only [reject_bind_eq_ok, reject_eq_ok] at hrest ⊢
  obtain ⟨h3, h4, h5, h6, h7, h8, -⟩ := hrest
  exact ⟨h3, h4, h5, h6, h7, h8, fun hb => hb.2 ha⟩

/-- What `validateProxyRule` has looked at before it hands a rule on. -/
def Rule.SameHead (r r' : Rule) : Prop :=
  r'.id = r.id ∧ r'.matcher.service = r.matcher.service ∧ r'.fault.action = r.fault.action

theorem validateRule_idem (r r' : Rule) (path path' : String) (h : validateRule r path = .ok r') :
    validateRule r' path' = .ok r' ∧ r'.fill = r' ∧ SelectorValid r'.select ∧ r.SameHead r' := by
  simp only [validateRule, bind_eq_ok, reject_eq_ok, exists_const, pure_eq_ok] at h
  obtain ⟨hmethod, hpath, hboth, hpattern, headers, hheaders, select, hselect, u, hfault, rfl⟩ := h
  have hvalid := validateHeaders_valid path _ ∅ headers hheaders (fun _ he => by cases he)
  have hsel := validateSelector_valid _ _ _ hselect
  refine ⟨?_, rfl, hsel, rfl, rfl, rfl⟩
  simp only [validateRule, bind_eq_ok, reject_eq_ok, exists_const, pure_eq_ok, Option.getD_some]
  refine ⟨hmethod, hpath, hboth, hpattern, headers, validateHeaders_of_valid path' headers hvalid,
    select, validateSelector_of_valid select path' hsel, (), ?_, ?_⟩
  · by_cases hrespond : r.fault.action = "respond"
    · exact validateFault_body r.fault _ _ _ hfault hrespond
    · simp only [hrespond, false_and, if_false]
      exact validateFault_path r.fault _ _ hfault
  · by_cases hbody : r.fault.action = "respond" ∧ r.fault.body = none
    · simp [if_pos hbody]
    · simp [if_neg hbody]

theorem validateTCPRule_idem (r r' : Rule) (path path' : String)
    (h : validateTCPRule r path = .ok r') :
    validateTCPRule r'.fill path' = .ok r'.fill ∧ SelectorValid r'.select ∧ r.SameHead r' := by
  simp only [validateTCPRule, bind_eq_ok, reject_eq_ok, exists_const, pure_eq_ok] at h
  obtain ⟨hempty, select, hselect, h1, h2, h3, h4, h5, h6, u, haction, rfl⟩ := h
  have hsel := validateSelector_valid _ _ _ hselect
  have hagain (q : Rule) (hm : emptyMatcher q.matcher = emptyMatcher r.matcher)
      (hs : q.select = select) (hf : q.fault = r.fault) : validateTCPRule q path' = .ok q := by
    simp only [validateTCPRule, bind_eq_ok, reject_eq_ok, exists_const, pure_eq_ok, hm, hs, hf]
    refine ⟨hempty, select, validateSelector_of_valid select path' hsel, h1, h2, h3, h4, h5, h6, (),
      validateTCPAction_path r.fault path path' haction, ?_⟩
    rw [← hs, ← hf]
  exact ⟨hagain _ rfl rfl rfl, hsel, rfl, rfl, rfl⟩

theorem emptyMatcher_headers (m : Matcher) (h : emptyMatcher m = true) :
    (m.headers.getD ∅).entries = [] := by
  simp only [emptyMatcher, Bool.and_eq_true, decide_eq_true_eq] at h
  exact List.eq_nil_of_length_eq_zero h.2

theorem validateCommitRule_idem (r r' : Rule) (path path' : String)
    (hrespond : r.fault.action ≠ "respond") (h : validateCommitRule r path = .ok r') :
    validateCommitRule r' path' = .ok r' ∧ r'.fill = r' ∧ SelectorValid r'.select ∧ r.SameHead r' := by
  simp only [validateCommitRule, bind_eq_ok, reject_eq_ok, exists_const, pure_eq_ok] at h
  obtain ⟨hempty, hphase, checked, hchecked, rfl⟩ := h
  obtain ⟨hidem, -, hsel, -⟩ := validateRule_idem _ checked path path' hchecked
  rw [Decidable.not_not] at hempty
  -- the header map of an empty matcher is checked into the empty map
  simp only [validateRule, bind_eq_ok, reject_eq_ok, exists_const, pure_eq_ok,
    emptyMatcher_headers r.matcher hempty, validateHeaders, Except.ok.injEq, hrespond, false_and,
    if_false] at hchecked
  obtain ⟨-, -, -, -, headers, rfl, select, -, u, -, rfl⟩ := hchecked
  refine ⟨?_, rfl, hsel, rfl, rfl, rfl⟩
  simp only [validateCommitRule, bind_eq_ok, reject_eq_ok, exists_const, pure_eq_ok]
  refine ⟨?_, hphase, _, hidem, rfl⟩
  simp only [emptyMatcher, Bool.and_eq_true, decide_eq_true_eq, Decidable.not_not] at hempty ⊢
  exact ⟨hempty.1, rfl⟩

/-- An accepted rule read back after printing is accepted as it is, and only a tcp
rule can differ from the rule that was printed. -/
theorem validateProxyRule_idem (protocol : String) (r r' : Rule) (path path' : String)
    (h : validateProxyRule protocol r path = .ok r') :
    validateProxyRule protocol r'.fill path' = .ok r'.fill ∧
      (SelectorValid r'.select ∧ r'.id ≠ "") ∧ r'.id = r.id ∧ (protocol ≠ "tcp" → r'.fill = r') := by
  simp only [validateProxyRule, bind_eq_ok, reject_eq_ok, exists_const] at h
  obtain ⟨hid, hgrpc, hservice, haction, hrule⟩ := h
  have hname : r.id ≠ "" := by
    rintro he
    simp [he, identifier] at hid
  have hagain (q : Rule) (hq : r.SameHead q)
      (hcheck : (if isDatabase protocol then validateCommitRule q path'
        else if protocol = "tcp" then validateTCPRule q path' else validateRule q path') = .ok q) :
      validateProxyRule protocol q path' = .ok q := by
    obtain ⟨h1, h2, h3⟩ := hq
    simp only [validateProxyRule, bind_eq_ok, reject_eq_ok, exists_const, h1, h2, h3]
    exact ⟨hid, hgrpc, hservice, haction, hcheck⟩
  by_cases hdb : isDatabase protocol = true
  · rw [if_pos hdb] at hrule
    have hrespond : r.fault.action ≠ "respond" := by
      intro he
      have htcp : protocol ≠ "tcp" := by
        rintro rfl
        cases hdb
      simp [he, actions, hdb, htcp] at haction
    obtain ⟨hidem, hfill, hsel, hhead⟩ := validateCommitRule_idem r r' path path' hrespond hrule
    rw [hfill]
    exact ⟨hagain r' hhead ((if_pos hdb).trans hidem), ⟨hsel, hhead.1 ▸ hname⟩, hhead.1, fun _ => rfl⟩
  rw [if_neg hdb] at hrule
  by_cases htcp : protocol = "tcp"
  · rw [if_pos htcp] at hrule
    obtain ⟨hidem, hsel, hhead⟩ := validateTCPRule_idem r r' path path' hrule
    exact ⟨hagain r'.fill hhead (((if_neg hdb).trans (if_pos htcp)).trans hidem),
      ⟨hsel, hhead.1 ▸ hname⟩, hhead.1, fun hne => absurd htcp hne⟩
  · rw [if_neg htcp] at hrule
    obtain ⟨hidem, hfill, hsel, hhead⟩ := validateRule_idem r r' path path' hrule
    rw [hfill]
    exact ⟨hagain r' hhead (((if_neg hdb).trans (if_neg htcp)).trans hidem),
      ⟨hsel, hhead.1 ▸ hname⟩, hhead.1, fun _ => rfl⟩

theorem validateRules_idem (protocol path path' : String) (j j' : ℕ) (rules rules' : List Rule)
    (h : validateRules protocol path j rules = .ok rules') :
    validateRules protocol path' j' (rules'.map Rule.fill) = .ok (rules'.map Rule.fill) ∧
      (∀ r ∈ rules', SelectorValid r.select ∧ r.id ≠ "") ∧ rules'.map Rule.id = rules.map Rule.id ∧
      (protocol ≠ "tcp" → ∀ r ∈ rules', r.fill = r) := by
  induction rules generalizing j j' rules' with
  | nil =>
    cases h
    simp [validateRules]
  | cons r rules ih =>
    simp only [validateRules, bind_eq_ok, pure_eq_ok] at h
    obtain ⟨r', hr, rest, hrest, rfl⟩ := h
    obtain ⟨hidem, hsel, hid, hfill⟩ := validateProxyRule_idem protocol r r' _
      (elementPath (path' ++ ".rules") j') hr
    obtain ⟨hidems, hsels, hids, hfills⟩ := ih (j+1) (j'+1) rest hrest
    refine ⟨?_, ?_, ?_, ?_⟩
    · simp only [List.map_cons, validateRules, bind_eq_ok, pure_eq_ok]
      exact ⟨_, hidem, _, hidems, rfl⟩
    · exact List.forall_mem_cons.mpr ⟨hsel, hsels⟩
    · simp only [List.map_cons, hid, hids]
    · exact fun hne => List.forall_mem_cons.mpr ⟨hfill hne, hfills hne⟩

end Faultline
