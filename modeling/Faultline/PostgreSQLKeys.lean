import Faultline.PostgreSQLAuth
import Faultline.PostgreSQLRelay

/-! The cancel key of the backend. A session authenticates and then exchanges frames; what the client
sees and what is recorded does not depend on the key, and no other frame of this kind gets through. -/
namespace Faultline.PostgreSQL

def isKey (f : Frame) : Prop := f.kind = 'K'.toUInt8

/-- The frames that `authenticate` has not read when it returns. -/
def authLeft (key : Option CancelKey) : Auth → List Frame → List Frame
  | _, [] => []
  | a, f :: back =>
    match authStep key a f with
    | .go a' => authLeft key a' back
    | .stop _ _ => back

/-- What `select` takes next in `exchange`. -/
inductive Turn where
  | done (m : Moment)
  | front (m : Moment)
  | back (m : Moment)
  | control (op : ServiceOp)

/-- The inputs of `exchange` for the frames that are still to come. A pump that finds no more frames
cancels the session. -/
def turnInputs : List Turn → List Frame → List Frame → List Input
  | [], _, _ => []
  | .done m :: turns, front, back => .done m :: turnInputs turns front back
  | .control op :: turns, front, back => .control op :: turnInputs turns front back
  | .front m :: turns, [], back => .done m :: turnInputs turns [] back
  | .front m :: turns, f :: front, back => .front f m :: turnInputs turns front back
  | .back m :: turns, front, [] => .done m :: turnInputs turns front []
  | .back m :: turns, front, f :: back => .back f m :: turnInputs turns front back

/-- A session after the startup packet: `authenticate` and, if it succeeds, `exchange`. The result is
what was written to the client and the recorded events. -/
def serveFrames (e : Endpoint) (service : Service) (key : Option CancelKey) (client upstream : Sink)
    (turns : List Turn) (front back : List Frame) : Sink × List Event :=
  let (ok, a) := authenticate key front back client upstream
  if ok then
    let s := (exchange e (.start service a.client a.upstream)
      (turnInputs turns a.answers (authLeft key ⟨0, none, front, client, upstream⟩ back))).2
    (s.client, s.events)
  else (a.client, [])

def SameButKey (f g : Frame) : Prop :=
  f = g ∨ isKey f ∧ isKey g ∧ f.body.length = 8 ∧ g.body.length = 8

/-- An authentication with another backend key in the place of the one that it holds, if any. -/
def Auth.hold (a : Auth) (registered : Option (CancelKey × Bytes)) : Auth := { a with registered := registered }

def AuthNext.hold (registered : Option (CancelKey × Bytes)) : AuthNext → AuthNext
  | .go a => .go (a.hold registered)
  | .stop ok a => .stop ok (a.hold registered)

section
variable (registered : Option (CancelKey × Bytes)) (a : Auth) (f : Frame)

theorem reject_hold : (a.hold registered).reject = a.reject.hold registered := rfl

theorem forward_hold : (a.hold registered).forward f = (a.forward f).hold registered := by
  unfold Auth.forward
  rw [apply_ite (AuthNext.hold registered)]
  rfl

theorem authAnswer_hold (code : ℕ) :
    authAnswer (a.hold registered) code = (authAnswer a code).hold registered := by
  obtain ⟨stage, held, answers, client, upstream⟩ := a
  cases answers with
  | nil => rfl
  | cons response answers =>
    unfold authAnswer
    simp only [apply_ite (AuthNext.hold registered)]
    rfl

theorem authRequest_hold : authRequest (a.hold registered) f = (authRequest a f).hold registered := by
  unfold authRequest
  by_cases hlen : f.body.length < 4
  · rw [if_pos hlen, if_pos hlen]
    rfl
  rw [if_neg hlen, if_neg hlen]
  have hsame : (a.hold registered).stage = a.stage := rfl
  simp only [hsame]
  cases authStage (beNat (f.body.take 4)) (f.body.drop 4) a.stage with
  | none => rfl
  | some stage =>
    simp only [apply_ite (AuthNext.hold registered), ← authAnswer_hold]
    rfl

end

/-- The two sides of `authenticate` with different backend keys. -/
def Alike (a b : Auth) : Prop :=
  ∃ registered, b = a.hold registered ∧ registered.isSome = a.registered.isSome

theorem alike_refl (a : Auth) : Alike a a := ⟨a.registered, rfl, rfl⟩

inductive AlikeNext : AuthNext → AuthNext → Prop where
  | go (a b : Auth) (h : Alike a b) : AlikeNext (.go a) (.go b)
  | stop (ok : Bool) (a b : Auth) (h : Alike a b) : AlikeNext (.stop ok a) (.stop ok b)

theorem hold_alike (n : AuthNext) {registered registered' : Option (CancelKey × Bytes)}
    (h : registered'.isSome = registered.isSome) : AlikeNext (n.hold registered) (n.hold registered') := by
  cases n with
  | go a => exact .go _ _ ⟨registered', rfl, h⟩
  | stop ok a => exact .stop _ _ _ ⟨registered', rfl, h⟩

theorem authStep_hold (key : Option CancelKey) (registered : Option (CancelKey × Bytes)) (a : Auth) (f : Frame)
    (h : ¬ isKey f) : authStep key (a.hold registered) f = (authStep key a f).hold registered := by
  unfold authStep
  by_cases hR : f.kind = 'R'.toUInt8
  · rw [if_pos hR, if_pos hR]
    exact authRequest_hold registered a f
  have hK : ¬ f.kind = 'K'.toUInt8 := h
  rw [if_neg hR, if_neg hR, if_neg hK, if_neg hK]
  by_cases hZ : f.kind = 'Z'.toUInt8
  · rw [if_pos hZ, if_pos hZ]
    by_cases hbad : a.stage ≠ 4 ∨ f.body ≠ bytesOf "I"
    · rw [if_pos hbad]
      exact if_pos hbad
    · rw [if_neg hbad]
      exact if_neg hbad
  rw [if_neg hZ, if_neg hZ]
  by_cases hE : f.kind = 'E'.toUInt8
  · rw [if_pos hE, if_pos hE]
    rfl
  rw [if_neg hE, if_neg hE]
  by_cases hSN : f.kind = 'S'.toUInt8 ∨ f.kind = 'N'.toUInt8
  · rw [if_pos hSN, if_pos hSN]
    exact forward_hold registered a f
  · rw [if_neg hSN, if_neg hSN]
    exact reject_hold registered a

theorem authStep_key (key : Option CancelKey) (a : Auth) (f : Frame) (h : isKey f) :
    authStep key a f = authKey key a f := by
  have hR : f.kind ≠ 'R'.toUInt8 := by
    rw [h]
    decide
  exact (if_neg hR).trans (if_pos h)

theorem authStep_alike (key : Option CancelKey) {a b : Auth} {f g : Frame} (hab : Alike a b)
    (hfg : SameButKey f g) : AlikeNext (authStep key a f) (authStep key b g) := by
  obtain ⟨registered, rfl, hsome⟩ := hab
  by_cases hkey : isKey f
  · have hkey' : isKey g ∧ (f.body.length ≠ 8 ↔ g.body.length ≠ 8) := by
      rcases hfg with rfl | ⟨-, hg, hlen, hlen'⟩
      · exact ⟨hkey, Iff.rfl⟩
      · exact ⟨hg, by omega⟩
    rw [authStep_key key a f hkey, authStep_key key _ g hkey'.1]
    unfold authKey
    by_cases hbad : f.body.length ≠ 8 ∨ a.registered.isSome = true
    · rw [if_pos hbad, if_pos (hkey'.2.symm.or (by rw [← hsome]; rfl) |>.mpr hbad)]
      exact .stop _ _ _ ⟨registered, rfl, hsome⟩
    · rw [if_neg hbad, if_neg (fun hh => hbad (hkey'.2.symm.or (by rw [← hsome]; rfl) |>.mp hh))]
      cases key with
      | none => exact .stop _ _ _ ⟨registered, rfl, hsome⟩
      | some k =>
        -- both clients get a frame with the key of the proxy
        have hkind : f.kind = g.kind := hkey.trans hkey'.1.symm
        have hf := forward_hold (some (k, f.body)) a ⟨f.kind, k.bytes, by rw [k.size]; decide⟩
        have hg := forward_hold (some (k, g.body)) a ⟨g.kind, k.bytes, by rw [k.size]; decide⟩
        simp only [← hkind] at hg ⊢
        exact hf ▸ hg ▸ hold_alike _ rfl
  · have hsame : f = g := hfg.resolve_right (fun hh => hkey hh.1)
    subst hsame
    rw [authStep_hold key registered a f hkey]
    have hself : authStep key a f = (authStep key a f).hold a.registered :=
      authStep_hold key a.registered a f hkey
    have halike := hold_alike (authStep key a f) hsome
    rwa [← hself] at halike

theorem authLoop_alike (key : Option CancelKey) {xs ys : List Frame} (hback : List.Forall₂ SameButKey xs ys)
    (a b : Auth) (hab : Alike a b) : (authLoop key a xs).1 = (authLoop key b ys).1 ∧
      Alike (authLoop key a xs).2 (authLoop key b ys).2 ∧
      List.Forall₂ SameButKey (authLeft key a xs) (authLeft key b ys) := by
  induction hback generalizing a b with
  | nil => exact ⟨rfl, hab, .nil⟩
  | @cons f g xs ys hfg hrest ih =>
    have hstep := authStep_alike key hab hfg
    unfold authLoop authLeft
    generalize authStep key a f = n at hstep
    generalize authStep key b g = n' at hstep
    cases hstep with
    | go a' b' h => exact ih a' b' h
    | stop ok a' b' h => exact ⟨rfl, h, hrest⟩

def SameInput (i j : Input) : Prop :=
  i = j ∨ ∃ f g m, i = .back f m ∧ j = .back g m ∧ isKey f ∧ isKey g

theorem turnInputs_same (turns : List Turn) (front : List Frame) {xs ys : List Frame}
    (hback : List.Forall₂ SameButKey xs ys) :
    List.Forall₂ SameInput (turnInputs turns front xs) (turnInputs turns front ys) := by
  induction turns generalizing front xs ys with
  | nil => exact .nil
  | cons turn turns ih =>
    cases turn with
    | done m => exact .cons (.inl rfl) (ih front hback)
    | control op => exact .cons (.inl rfl) (ih front hback)
    | front m =>
      cases front with
      | nil => exact .cons (.inl rfl) (ih [] hback)
      | cons f front => exact .cons (.inl rfl) (ih front hback)
    | back m =>
      cases hback with
      | nil => exact .cons (.inl rfl) (ih front .nil)
      | @cons f g xs ys hfg hrest =>
        refine .cons ?_ (ih front hrest)
        rcases hfg with rfl | ⟨hf, hg, -, -⟩
        · exact .inl rfl
        · exact .inr ⟨f, g, m, rfl, rfl, hf, hg⟩

theorem backStep_key (e : Endpoint) (s : Session) (f : Frame) (m : Moment) (h : isKey f) :
    backStep e s f m = (none, s.refuse m) := by
  have hkind : f.kind ∉ backKinds := by
    rw [h]
    decide +kernel
  exact if_pos hkind

theorem exchangeStep_same (e : Endpoint) (s : Session) {i j : Input} (h : SameInput i j) :
    exchangeStep e s i = exchangeStep e s j := by
  rcases h with rfl | ⟨f, g, m, rfl, rfl, hf, hg⟩
  · rfl
  · simp only [exchangeStep, backStep_key e s f m hf, backStep_key e s g m hg]

theorem authStep_registers {key : Option CancelKey} {a a' : Auth} {f : Frame} (h : authStep key a f = .go a')
    (hkey : a.registered.isSome = true ∨ isKey f) : a'.registered.isSome = true := by
  by_cases hf : isKey f
  · rw [authStep_key key a f hf] at h
    unfold authKey at h
    split_ifs at h
    cases key with
    | none => cases h
    | some k =>
      have hheld := forward_hold (some (k, f.body)) a ⟨f.kind, k.bytes, by rw [k.size]; decide⟩
      have hgo := hheld.symm.trans h
      cases hn : a.forward ⟨f.kind, k.bytes, by rw [k.size]; decide⟩ with
      | go b =>
        rw [hn] at hgo
        cases hgo
        rfl
      | stop ok b =>
        rw [hn] at hgo
        cases hgo
  · have hself : authStep key a f = (authStep key a f).hold a.registered :=
      authStep_hold key a.registered a f hf
    rw [h] at hself
    have hsame : a' = a'.hold a.registered := AuthNext.go.inj hself
    rw [hsame]
    exact hkey.resolve_right hf

theorem authLoop_append (key : Option CancelKey) (a : Auth) (xs : List Frame) :
    (∀ zs, authLoop key a (xs ++ zs) = authLoop key a xs ∧
      authLeft key a (xs ++ zs) = authLeft key a xs ++ zs) ∨
    ∃ a', authLoop key a xs = (false, a') ∧ (∀ zs, authLoop key a (xs ++ zs) = authLoop key a' zs) ∧
      ((a.registered.isSome = true ∨ ∃ g ∈ xs, isKey g) → a'.registered.isSome = true) := by
  induction xs generalizing a with
  | nil => exact .inr ⟨a, rfl, fun _ => rfl, fun h => h.resolve_right (by simp)⟩
  | cons x xs ih =>
    simp only [List.cons_append, authLoop, authLeft]
    cases hstep : authStep key a x with
    | stop ok a' => exact .inl (fun zs => ⟨rfl, rfl⟩)
    | go a' =>
      rcases ih a' with hstops | ⟨b, hend, hrest, hkeys⟩
      · exact .inl hstops
      · refine .inr ⟨b, hend, hrest, fun h => hkeys ?_⟩
        rcases h with hsome | ⟨g, hg, hkey⟩
        · exact .inl (authStep_registers hstep (.inl hsome))
        · rcases List.mem_cons.mp hg with rfl | hmem
          · exact .inl (authStep_registers hstep (.inr hkey))
          · exact .inr ⟨g, hmem, hkey⟩

theorem exchange_closed (e : Endpoint) (s : Session) (inputs : List Input) (h : s.closed = true) :
    (exchange e s inputs).2.client = s.client ∧ (exchange e s inputs).2.events = s.events := by
  have hkeep := run_invariant (exchangeStep e)
    (fun x => x.closed = true ∧ x.client = s.client ∧ x.events = s.events) ?_ s ⟨h, rfl, rfl⟩ inputs
  · exact hkeep.2
  · rintro x i ⟨hclosed, hclient, hevents⟩
    obtain ⟨hc, hl, -⟩ := exchangeStep_ended (e := e) i hclosed
    refine ⟨hc, hl.trans hclient, ?_⟩
    cases i <;> simp [exchangeStep, hclosed, hevents]

/-- The client sees the same, with at most a part of the final message after it. -/
def Cut (r r' : Sink × List Event) : Prop :=
  r.2 = r'.2 ∧ ∃ t, t <+: rejection.bytes ∧ r.1.written = r'.1.written ++ t

theorem cut_refl (r : Sink × List Event) : Cut r r := ⟨rfl, [], List.nil_prefix, (List.append_nil _).symm⟩

theorem refuse_cut (s : Session) (m : Moment) :
    Cut ((s.refuse m).client, (s.refuse m).events) ((s.close m).client, (s.close m).events) := by
  obtain ⟨t, ht, hw, -⟩ := s.client.write_written rejection.bytes
  refine ⟨?_, t, ht, ?_⟩
  · simp only [Session.refuse, Session.close, Session.finish]
    split_ifs <;> rfl
  · simpa only [Session.refuse, Session.close, finish_client] using hw

theorem exchange_cut (e : Endpoint) (f : Frame) (hf : isKey f) (ys : List Frame) (turns : List Turn) (s : Session)
    (front xs : List Frame) :
    let s₁ := (exchange e s (turnInputs turns front (xs ++ f :: ys))).2
    let s₂ := (exchange e s (turnInputs turns front xs)).2
    Cut (s₁.client, s₁.events) (s₂.client, s₂.events) := by
  induction turns generalizing s front xs with
  | nil => exact cut_refl _
  | cons turn turns ih =>
    cases turn with
    | done m => exact ih _ front xs
    | control op => exact ih _ front xs
    | front m =>
      cases front with
      | nil => exact ih _ [] xs
      | cons g front => exact ih _ front xs
    | back m =>
      cases xs with
      | cons g xs => exact ih _ front xs
      | nil =>
        -- the key is read where the other stream has ended
        simp only [List.nil_append, turnInputs, exchange, run]
        by_cases hclosed : s.closed = true
        · have h1 : exchangeStep e s (.back f m) = (none, s) := if_pos hclosed
          have h2 : exchangeStep e s (.done m) = (none, s) := if_pos hclosed
          obtain ⟨hc, he⟩ := exchange_closed e s (turnInputs turns front ys) hclosed
          obtain ⟨hc', he'⟩ := exchange_closed e s (turnInputs turns front []) hclosed
          rw [exchange] at hc he hc' he'
          rw [h1, h2, hc, he, hc', he']
          exact cut_refl _
        · have h1 : exchangeStep e s (.back f m) = (none, s.refuse m) :=
            (if_neg hclosed).trans (backStep_key e s f m hf)
          have h2 : exchangeStep e s (.done m) = (none, s.close m) := if_neg hclosed
          obtain ⟨hc, he⟩ := exchange_closed e (s.refuse m) (turnInputs turns front ys) rfl
          obtain ⟨hc', he'⟩ := exchange_closed e (s.close m) (turnInputs turns front []) rfl
          rw [exchange] at hc he hc' he'
          rw [h1, h2, hc, he, hc', he']
          exact refuse_cut s m

structure KeyLaw (e : Endpoint) (service : Service) (key : Option CancelKey) (client upstream : Sink)
    (turns : List Turn) (front : List Frame) : Prop where
  /-- The client and the recorder cannot tell two keys apart. -/
  hidden : ∀ back back', List.Forall₂ SameButKey back back' →
    serveFrames e service key client upstream turns front back =
      serveFrames e service key client upstream turns front back'
  /-- Nothing of a second key, of one of another length or of one after the authentication is forwarded:
  the session is as if the stream ended there, but for a part of the message that refuses it. -/
  refused : ∀ xs f ys, isKey f → (∃ g ∈ xs, isKey g) ∨ f.body.length ≠ 8 ∨
      (authenticate key front xs client upstream).1 = true →
    Cut (serveFrames e service key client upstream turns front (xs ++ f :: ys))
      (serveFrames e service key client upstream turns front xs)

theorem serveFrames_hidden (e : Endpoint) (service : Service) (key : Option CancelKey) (client upstream : Sink)
    (turns : List Turn) (front back back' : List Frame) (h : List.Forall₂ SameButKey back back') :
    serveFrames e service key client upstream turns front back =
      serveFrames e service key client upstream turns front back' := by
  obtain ⟨hok, ⟨registered, hheld, -⟩, hleft⟩ :=
    authLoop_alike key h ⟨0, none, front, client, upstream⟩ _ (alike_refl _)
  have hinputs := turnInputs_same turns
    (authLoop key ⟨0, none, front, client, upstream⟩ back).2.answers hleft
  have hrun := run_congr (exchangeStep e) (.start service
      (authLoop key ⟨0, none, front, client, upstream⟩ back).2.client
      (authLoop key ⟨0, none, front, client, upstream⟩ back).2.upstream)
    (hinputs.imp (fun i j hij s => exchangeStep_same e s hij))
  simp only [serveFrames, authenticate, exchange, ← hok, hheld, Auth.hold, hrun]

theorem serveFrames_refused (e : Endpoint) (service : Service) (key : Option CancelKey) (client upstream : Sink)
    (turns : List Turn) (front xs : List Frame) (f : Frame) (ys : List Frame) (hf : isKey f)
    (hbad : (∃ g ∈ xs, isKey g) ∨ f.body.length ≠ 8 ∨ (authenticate key front xs client upstream).1 = true) :
    Cut (serveFrames e service key client upstream turns front (xs ++ f :: ys))
      (serveFrames e service key client upstream turns front xs) := by
  rcases authLoop_append key ⟨0, none, front, client, upstream⟩ xs with hstops | ⟨a, hend, hrest, hkeys⟩
  · obtain ⟨hloop, hleft⟩ := hstops (f :: ys)
    cases hok : (authLoop key ⟨0, none, front, client, upstream⟩ xs).1 with
    | true =>
      simp only [serveFrames, authenticate, hloop, hleft, hok, if_true]
      exact exchange_cut e f hf ys turns _ _ _
    | false =>
      simp only [serveFrames, authenticate, hloop, hok, Bool.false_eq_true, if_false]
      exact cut_refl _
  · -- the key is read by `authenticate`, which returns without writing
    have hstop : authStep key a f = .stop false a := by
      rw [authStep_key key a f hf]
      apply if_pos
      rcases hbad with hsecond | hlen | hok
      · exact .inr (hkeys (.inr hsecond))
      · exact .inl hlen
      · rw [authenticate, hend] at hok
        cases hok
    have hloop : authLoop key ⟨0, none, front, client, upstream⟩ (xs ++ f :: ys) = (false, a) := by
      rw [hrest, authLoop, hstop]
    simp only [serveFrames, authenticate, hloop, hend]
    exact cut_refl _

/-- The cancel key of the backend never reaches the client. -/
theorem key_law (e : Endpoint) (service : Service) (key : Option CancelKey) (client upstream : Sink)
    (turns : List Turn) (front : List Frame) : KeyLaw e service key client upstream turns front where
  hidden := serveFrames_hidden e service key client upstream turns front
  refused := serveFrames_refused e service key client upstream turns front

end Faultline.PostgreSQL
