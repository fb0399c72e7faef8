import Faultline.Config
import Faultline.Machine
import Faultline.PostgreSQLAuth

/-! Cancellation. The sessions of all PostgreSQL listeners share one table of functions that cancel
them. A session adds its function when it gets the key of its backend and removes it when it ends; a
CancelRequest looks up a function in one step and calls it in a later one, and the steps of all
sessions and requests interleave. -/
namespace Faultline.PostgreSQL

structure Listener where
  id : String
  upstream : String
  deriving DecidableEq

/-- The listeners of a server. Loading a configuration refuses a proxy ID that occurs twice. -/
structure Listeners where
  all : List Listener
  distinct : (all.map Listener.id).Nodup

/-- The listeners that `Start` opens. -/
def Listeners.ofConfig (c : Config) (h : (c.proxies.map Proxy.id).Nodup) : Listeners where
  all := (c.proxies.filter (·.protocol = "postgresql")).map (fun p => ⟨p.id, p.upstream⟩)
  distinct := by
    rw [List.map_map]
    exact h.sublist (List.filter_sublist.map Proxy.id)

/-- A session of `serve` from `authenticate` on: its listener, its key and that of its backend once it
has them, and whether it has run its cleanup. -/
structure Served where
  listener : Listener
  registered : Option (CancelKey × Bytes)
  live : Bool

structure Cancellation where
  session : ℕ
  listener : Listener
  backendKey : Bytes
  deriving DecidableEq

/-- The sessions in the order of their start, the table, what each CancelRequest has found and not yet
called, the sessions whose context was cancelled, and the packets that `cancelBackend` sent with the
upstream that got them. -/
structure Registry where
  sessions : List Served
  cancels : Bytes → Option Cancellation
  found : List (Option Cancellation)
  cancelled : List ℕ
  sent : List (String × Bytes)

def Registry.empty : Registry := ⟨[], fun _ => none, [], [], []⟩

def tableKey (l : Listener) (k : CancelKey) : Bytes := bytesOf l.id ++ k.bytes

def cancelCode : ℕ := 80877102

def cancelPacket (b : Bytes) : Option CancelKey :=
  if h : b.length = 12 ∧ beNat (b.take 4) = cancelCode then
    some ⟨b.drop 4, by rw [List.length_drop, h.1]⟩
  else none

inductive ServerStep where
  | start (i : ℕ)
  | backendKey (n : ℕ) (key : Option CancelKey) (body : Bytes)
  | finish (n : ℕ)
  | cancelRequest (i : ℕ) (packet : Bytes)
  | cancel (h : ℕ) (connected : Bool)

def Registry.finish (s : Registry) (n : ℕ) (x : Served) : Registry :=
  { s with
    sessions := s.sessions.set n { x with live := false }
    cancels := match x.registered with
      | none => s.cancels
      | some (k, _) => Function.update s.cancels (tableKey x.listener k) none }

def Registry.register (s : Registry) (n : ℕ) (x : Served) (k : CancelKey) (body : Bytes) : Registry :=
  { s with
    sessions := s.sessions.set n { x with registered := some (k, body) }
    cancels := Function.update s.cancels (tableKey x.listener k) (some ⟨n, x.listener, body⟩) }

/-- A session gets a backend key. A second one, one of another length or a failure of the random
source ends it. -/
def Registry.receiveKey (s : Registry) (n : ℕ) (x : Served) (key : Option CancelKey) (body : Bytes) : Registry :=
  if body.length ≠ 8 ∨ x.registered.isSome then s.finish n x
  else
    match key with
    | none => s.finish n x
    | some k => s.register n x k body

/-- The server registers a session where `authenticate` takes the key, with the same keys. -/
theorem receiveKey_authKey (s : Registry) (n : ℕ) (x : Served) (key : Option CancelKey) (a : Auth) (f : Frame)
    (ha : a.registered = x.registered) :
    s.receiveKey n x key f.body = s.finish n x ∧ authKey key a f = .stop false a ∨
      ∃ k g, s.receiveKey n x key f.body = s.register n x k f.body ∧
        authKey key a f = { a with registered := some (k, f.body) }.forward g ∧ g.body = k.bytes := by
  unfold Registry.receiveKey authKey
  rw [ha]
  by_cases hbad : f.body.length ≠ 8 ∨ x.registered.isSome = true
  · rw [if_pos hbad, if_pos hbad]
    exact .inl ⟨rfl, rfl⟩
  · rw [if_neg hbad, if_neg hbad]
    cases key with
    | none => exact .inl ⟨rfl, rfl⟩
    | some k => exact .inr ⟨k, _, rfl, rfl, rfl⟩

def Registry.call (s : Registry) (h : ℕ) (connected : Bool) (c : Cancellation) : Registry :=
  { s with
    found := s.found.set h none
    cancelled := s.cancelled ++ [c.session]
    sent := s.sent ++ if connected then [(c.listener.upstream, putBE 4 cancelCode ++ c.backendKey)] else [] }

/-- One step, and the function that it looks up or calls. A step of a session that does not exist or
has ended does nothing. -/
def serverStep (ls : Listeners) (s : Registry) : ServerStep → Option Cancellation × Registry
  | .start i =>
    match ls.all[i]? with
    | none => (none, s)
    | some l => (none, { s with sessions := s.sessions ++ [⟨l, none, true⟩] })
  | .backendKey n key body =>
    match s.sessions[n]? with
    | none => (none, s)
    | some x => (none, if x.live then s.receiveKey n x key body else s)
  | .finish n =>
    match s.sessions[n]? with
    | none => (none, s)
    | some x => (none, if x.live then s.finish n x else s)
  | .cancelRequest i packet =>
    match ls.all[i]?, cancelPacket packet with
    | some l, some k => (s.cancels (tableKey l k), { s with found := s.found ++ [s.cancels (tableKey l k)] })
    | _, _ => (none, s)
  | .cancel h connected =>
    match s.found[h]? with
    | some (some c) => (some c, s.call h connected c)
    | _ => (none, s)

def serverRun (ls : Listeners) (steps : List ServerStep) : List (Option Cancellation) × Registry :=
  run (serverStep ls) .empty steps

def serverAt (ls : Listeners) (steps : List ServerStep) (n : ℕ) : Registry := (serverRun ls (steps.take n)).2

/-- Neither listeners nor keys can be confused: a key has eight bytes, so the end of a table key is the
key of the session, and the rest is the proxy ID. -/
theorem tableKey_injective (ls : Listeners) {l l' : Listener} (hl : l ∈ ls.all) (hl' : l' ∈ ls.all)
    {k k' : CancelKey} (h : tableKey l k = tableKey l' k') : l = l' ∧ k = k' := by
  obtain ⟨hid, hkey⟩ := List.append_inj' h (by rw [k.size, k'.size])
  refine ⟨?_, ?_⟩
  · exact List.inj_on_of_nodup_map ls.distinct hl hl' (bytesOf_injective hid)
  · cases k
    cases k'
    cases hkey
    rfl

def Registry.Registered (s : Registry) (n : ℕ) (l : Listener) (k : CancelKey) (backendKey : Bytes) : Prop :=
  ∃ x, s.sessions[n]? = some x ∧ x.live = true ∧ x.listener = l ∧ x.registered = some (k, backendKey)

def DistinctKeys (s : Registry) : Prop :=
  ∀ n n' l k b b', s.Registered n l k b → s.Registered n' l k b' → n = n'

/-- The table has the functions of the live sessions that have their key, and no others. -/
structure Tabled (ls : Listeners) (s : Registry) : Prop where
  known : ∀ x ∈ s.sessions, x.listener ∈ ls.all
  entries : ∀ key c, s.cancels key = some c ↔
    ∃ k, s.Registered c.session c.listener k c.backendKey ∧ key = tableKey c.listener k

theorem tabled_empty (ls : Listeners) : Tabled ls .empty := by
  refine ⟨by simp [Registry.empty], fun key c => ?_⟩
  simp [Registry.empty, Registry.Registered]

theorem Registry.Registered.listener {ls : Listeners} {s : Registry} (h : Tabled ls s) {n : ℕ} {l : Listener}
    {k : CancelKey} {b : Bytes} (hreg : s.Registered n l k b) : l ∈ ls.all := by
  obtain ⟨x, hx, -, rfl, -⟩ := hreg
  exact h.known x (List.mem_of_getElem? hx)

theorem registered_set {s s' : Registry} {n : ℕ} {x y : Served} (hx : s.sessions[n]? = some x)
    (hs : s'.sessions = s.sessions.set n y) (m : ℕ) (l : Listener) (k : CancelKey) (b : Bytes) :
    s'.Registered m l k b ↔ if m = n then y.live = true ∧ y.listener = l ∧ y.registered = some (k, b)
      else s.Registered m l k b := by
  have hlt := (List.getElem?_eq_some_iff.mp hx).1
  unfold Registry.Registered
  rw [hs]
  by_cases hm : m = n
  · subst hm
    simp [hlt]
  · rw [if_neg hm, List.getElem?_set_ne (Ne.symm hm)]

theorem known_set {ls : Listeners} {s : Registry} (h : Tabled ls s) {n : ℕ} {x y : Served}
    (hx : s.sessions[n]? = some x) (hy : y.listener = x.listener) :
    ∀ z ∈ s.sessions.set n y, z.listener ∈ ls.all := by
  intro z hz
  rcases List.mem_or_eq_of_mem_set hz with hmem | rfl
  · exact h.known z hmem
  · rw [hy]
    exact h.known x (List.mem_of_getElem? hx)

theorem tabled_start {ls : Listeners} {s : Registry} (h : Tabled ls s) (l : Listener) (hl : l ∈ ls.all) :
    Tabled ls { s with sessions := s.sessions ++ [⟨l, none, true⟩] } := by
  refine ⟨?_, fun key c => ?_⟩
  · intro x hx
    rcases List.mem_append.mp hx with hmem | hmem
    · exact h.known x hmem
    · rw [List.mem_singleton.mp hmem]
      exact hl
  · rw [h.entries key c]
    have hsame : ∀ k, Registry.Registered { s with sessions := s.sessions ++ [⟨l, none, true⟩] } c.session
        c.listener k c.backendKey ↔ s.Registered c.session c.listener k c.backendKey := by
      intro k
      constructor
      · rintro ⟨x, hx, hlive, hlistener, hreg⟩
        by_cases hlt : c.session < s.sessions.length
        · exact ⟨x, (List.getElem?_append_left hlt).symm.trans hx, hlive, hlistener, hreg⟩
        · -- the new session has no key yet
          rw [List.getElem?_append_right (by omega)] at hx
          obtain rfl := List.mem_singleton.mp (List.mem_of_getElem? hx)
          cases hreg
      · rintro ⟨x, hx, hrest⟩
        exact ⟨x, (List.getElem?_append_left (List.getElem?_eq_some_iff.mp hx).1).trans hx, hrest⟩
    simp only [hsame]

theorem tabled_register {ls : Listeners} {s : Registry} (h : Tabled ls s) {n : ℕ} {x : Served} (k : CancelKey)
    (body : Bytes) (hx : s.sessions[n]? = some x) (hlive : x.live = true) (hnone : x.registered = none)
    (hdistinct : DistinctKeys (s.register n x k body)) : Tabled ls (s.register n x k body) := by
  have hset := @registered_set s (s.register n x k body) n x _ hx rfl
  have hknown := known_set h (y := { x with registered := some (k, body) }) hx rfl
  have hl := h.known x (List.mem_of_getElem? hx)
  have hself : (s.register n x k body).Registered n x.listener k body := by
    rw [hset, if_pos rfl]
    exact ⟨hlive, rfl, rfl⟩
  refine ⟨hknown, fun key c => ?_⟩
  by_cases hkey : key = tableKey x.listener k
  · have hnew : (s.register n x k body).cancels key = some ⟨n, x.listener, body⟩ := by
      rw [hkey]
      exact Function.update_self _ _ _
    rw [hnew, Option.some.injEq]
    constructor
    · rintro rfl
      exact ⟨k, hself, hkey⟩
    · rintro ⟨k', hreg, hkey'⟩
      have hlistener : c.listener ∈ ls.all := by
        obtain ⟨y, hy, -, hyl, -⟩ := hreg
        rw [← hyl]
        exact hknown y (List.mem_of_getElem? hy)
      obtain ⟨hsame, rfl⟩ := tableKey_injective ls hl hlistener (hkey.symm.trans hkey')
      rw [← hsame] at hreg
      have hn := hdistinct _ _ _ _ _ _ hself hreg
      rw [← hn, hset, if_pos rfl] at hreg
      obtain ⟨-, -, hbody⟩ := hreg
      obtain ⟨session, listener, backendKey⟩ := c
      cases hbody
      cases hn
      cases hsame
      rfl
  · have hold : (s.register n x k body).cancels key = s.cancels key := Function.update_of_ne hkey _ _
    rw [hold, h.entries key c]
    constructor
    · rintro ⟨k', hreg, hkey'⟩
      refine ⟨k', ?_, hkey'⟩
      rw [hset, if_neg]
      · exact hreg
      · intro hn
        obtain ⟨y, hy, -, -, hyreg⟩ := hreg
        rw [hn, hx] at hy
        cases hy
        rw [hnone] at hyreg
        cases hyreg
    · rintro ⟨k', hreg, hkey'⟩
      refine ⟨k', ?_, hkey'⟩
      rw [hset] at hreg
      by_cases hn : c.session = n
      · rw [if_pos hn] at hreg
        obtain ⟨-, hlistener, hk⟩ := hreg
        cases hk
        rw [← hlistener] at hkey'
        exact absurd hkey' hkey
      · rwa [if_neg hn] at hreg

theorem tabled_finish {ls : Listeners} {s : Registry} (h : Tabled ls s) {n : ℕ} {x : Served}
    (hx : s.sessions[n]? = some x) (hlive : x.live = true) (hdistinct : DistinctKeys s) :
    Tabled ls (s.finish n x) := by
  have hset := @registered_set s (s.finish n x) n x _ hx rfl
  have hl := h.known x (List.mem_of_getElem? hx)
  refine ⟨known_set h hx rfl, fun key c => ?_⟩
  have hend : (∃ k, (s.finish n x).Registered c.session c.listener k c.backendKey ∧ key = tableKey c.listener k) ↔
      c.session ≠ n ∧ ∃ k, s.Registered c.session c.listener k c.backendKey ∧ key = tableKey c.listener k := by
    simp only [hset]
    by_cases hn : c.session = n
    · simp [hn]
    · simp [hn]
  rw [hend, ← h.entries key c]
  cases hreg : x.registered with
  | none =>
    have hold : (s.finish n x).cancels = s.cancels := by
      unfold Registry.finish
      rw [hreg]
    rw [hold]
    refine ⟨fun hc => ⟨?_, hc⟩, And.right⟩
    intro hn
    obtain ⟨k, ⟨y, hy, -, -, hyreg⟩, -⟩ := (h.entries key c).mp hc
    rw [hn, hx] at hy
    cases hy
    rw [hreg] at hyreg
    cases hyreg
  | some r =>
    obtain ⟨k, body⟩ := r
    have hold : (s.finish n x).cancels = Function.update s.cancels (tableKey x.listener k) none := by
      unfold Registry.finish
      rw [hreg]
    have hself : s.Registered n x.listener k body := ⟨x, hx, hlive, rfl, hreg⟩
    rw [hold]
    by_cases hkey : key = tableKey x.listener k
    · rw [hkey, Function.update_self]
      refine iff_of_false (by simp) ?_
      rintro ⟨hn, hc⟩
      obtain ⟨k', hreg', hkey'⟩ := (h.entries _ c).mp hc
      obtain ⟨hsame, rfl⟩ := tableKey_injective ls hl (hreg'.listener h) hkey'
      rw [← hsame] at hreg'
      exact hn (hdistinct _ _ _ _ _ _ hreg' hself)
    · rw [Function.update_of_ne hkey]
      refine ⟨fun hc => ⟨?_, hc⟩, And.right⟩
      intro hn
      obtain ⟨k', ⟨y, hy, -, hyl, hyreg⟩, hkey'⟩ := (h.entries key c).mp hc
      rw [hn, hx] at hy
      cases hy
      rw [hreg] at hyreg
      cases hyreg
      rw [← hyl] at hkey'
      exact hkey hkey'

inductive Does (ls : Listeners) (s : Registry) : ServerStep → Option Cancellation → Registry → Prop where
  | idle (x : ServerStep) (hidle : ∀ h connected, x = .cancel h connected → ∀ c, s.found[h]? ≠ some (some c)) :
    Does ls s x none s
  | start (i : ℕ) (l : Listener) (hl : l ∈ ls.all) :
    Does ls s (.start i) none { s with sessions := s.sessions ++ [⟨l, none, true⟩] }
  | register (n : ℕ) (x : Served) (k : CancelKey) (body : Bytes) (hx : s.sessions[n]? = some x)
      (hlive : x.live = true) (hnone : x.registered = none) :
    Does ls s (.backendKey n (some k) body) none (s.register n x k body)
  | finish (y : ServerStep) (n : ℕ) (x : Served) (hx : s.sessions[n]? = some x) (hlive : x.live = true)
      (hnot : ∀ h connected, y ≠ .cancel h connected) :
    Does ls s y none (s.finish n x)
  | lookup (i : ℕ) (packet : Bytes) (key : Bytes) :
    Does ls s (.cancelRequest i packet) (s.cancels key) { s with found := s.found ++ [s.cancels key] }
  | call (h : ℕ) (connected : Bool) (c : Cancellation) (hc : s.found[h]? = some (some c)) :
    Does ls s (.cancel h connected) (some c) (s.call h connected c)

theorem serverStep_does (ls : Listeners) (s : Registry) (x : ServerStep) :
    Does ls s x (serverStep ls s x).1 (serverStep ls s x).2 := by
  cases x with
  | start i =>
    simp only [serverStep]
    split
    · exact .idle _ (fun _ _ hcall => nomatch hcall)
    · rename_i l hl
      exact .start i l (List.mem_of_getElem? hl)
  | backendKey n key body =>
    simp only [serverStep]
    split
    · exact .idle _ (fun _ _ hcall => nomatch hcall)
    · rename_i x hx
      by_cases hlive : x.live = true
      · simp only [if_pos hlive, Registry.receiveKey]
        split_ifs with hbad
        · exact .finish _ n x hx hlive (fun _ _ hcall => nomatch hcall)
        · cases key with
          | none => exact .finish _ n x hx hlive (fun _ _ hcall => nomatch hcall)
          | some k => exact .register n x k body hx hlive (by simpa using (not_or.mp hbad).2)
      · simp only [if_neg hlive]
        exact .idle _ (fun _ _ hcall => nomatch hcall)
  | finish n =>
    simp only [serverStep]
    split
    · exact .idle _ (fun _ _ hcall => nomatch hcall)
    · rename_i x hx
      by_cases hlive : x.live = true
      · simp only [if_pos hlive]
        exact .finish _ n x hx hlive (fun _ _ hcall => nomatch hcall)
      · simp only [if_neg hlive]
        exact .idle _ (fun _ _ hcall => nomatch hcall)
  | cancelRequest i packet =>
    simp only [serverStep]
    split
    · exact .lookup i packet _
    · exact .idle _ (fun _ _ hcall => nomatch hcall)
  | cancel h connected =>
    simp only [serverStep]
    split
    · rename_i c hc
      exact .call h connected c hc
    · rename_i hnone
      refine .idle _ (fun h' connected' hcall c hc => ?_)
      cases hcall
      exact hnone c hc

theorem Does.tabled {ls : Listeners} {s s' : Registry} {x : ServerStep} {out : Option Cancellation}
    (hdoes : Does ls s x out s') (h : Tabled ls s) (hdistinct : DistinctKeys s) (hdistinct' : DistinctKeys s') :
    Tabled ls s' := by
  cases hdoes with
  | idle => exact h
  | start i l hl => exact tabled_start h l hl
  | register n x k body hx hlive hnone => exact tabled_register h k body hx hlive hnone hdistinct'
  | finish _ n x hx hlive hnot => exact tabled_finish h hx hlive hdistinct
  | lookup i packet key => exact ⟨h.known, h.entries⟩
  | call m connected c hc => exact ⟨h.known, h.entries⟩

section Run
variable {ls : Listeners} {steps : List ServerStep}

theorem serverAt_succ {n : ℕ} {x : ServerStep} (hx : steps[n]? = some x) :
    serverAt ls steps (n+1) = (serverStep ls (serverAt ls steps n) x).2 :=
  run_take_succ (serverStep ls) .empty steps n x hx

theorem serverRun_out {n : ℕ} {x : ServerStep} (hx : steps[n]? = some x) :
    (serverRun ls steps).1[n]? = some (serverStep ls (serverAt ls steps n) x).1 :=
  run_getElem? (serverStep ls) .empty steps n x hx

theorem serverAt_of_le {n : ℕ} (h : steps.length ≤ n) : serverAt ls steps (n+1) = serverAt ls steps n := by
  rw [serverAt, serverAt, List.take_of_length_le h, List.take_of_length_le (by omega)]

theorem serverAt_tabled (hdistinct : ∀ n, DistinctKeys (serverAt ls steps n)) (n : ℕ) :
    Tabled ls (serverAt ls steps n) := by
  induction n with
  | zero => exact tabled_empty ls
  | succ n ih =>
    cases hx : steps[n]? with
    | none =>
      rw [serverAt_of_le (List.getElem?_eq_none_iff.mp hx)]
      exact ih
    | some x =>
      have hnext := hdistinct (n+1)
      rw [serverAt_succ hx] at hnext ⊢
      exact (serverStep_does ls _ x).tabled ih (hdistinct n) hnext

/-- The request that is the `h`-th to look up the table, and what it finds. -/
def LookedUp (ls : Listeners) (steps : List ServerStep) (h n : ℕ) (c : Cancellation) : Prop :=
  (∃ i packet, steps[n]? = some (.cancelRequest i packet)) ∧ (serverAt ls steps n).found.length = h ∧
    (serverRun ls steps).1[n]? = some (some c)

theorem Does.found {s s' : Registry} {x : ServerStep} {out : Option Cancellation} (hdoes : Does ls s x out s')
    (h : ℕ) (c : Cancellation) (hfound : s'.found[h]? = some (some c)) :
    (s.found[h]? = some (some c) ∧ ∀ connected, x ≠ .cancel h connected) ∨
      (∃ i packet, x = .cancelRequest i packet) ∧ s.found.length = h ∧ out = some c := by
  cases hdoes with
  | idle _ hidle => exact .inl ⟨hfound, fun connected hcall => hidle h connected hcall c hfound⟩
  | start i l hl => exact .inl ⟨hfound, fun _ hcall => nomatch hcall⟩
  | register n x k body hx hlive hnone => exact .inl ⟨hfound, fun _ hcall => nomatch hcall⟩
  | finish _ n x hx hlive hnot => exact .inl ⟨hfound, hnot h⟩
  | lookup i packet key =>
    by_cases hlt : h < s.found.length
    · rw [List.getElem?_append_left hlt] at hfound
      exact .inl ⟨hfound, fun _ hcall => nomatch hcall⟩
    · have hlen : h = s.found.length := by
        have hbound := (List.getElem?_eq_some_iff.mp hfound).1
        rw [List.length_append, List.length_singleton] at hbound
        omega
      subst hlen
      rw [List.getElem?_append_right le_rfl, Nat.sub_self] at hfound
      exact .inr ⟨⟨i, packet, rfl⟩, rfl, Option.some.inj hfound⟩
  | call m connected c' hc' =>
    -- a function is called once
    by_cases hm : h = m
    · have hlt := (List.getElem?_eq_some_iff.mp hc').1
      rw [hm] at hfound
      simp [Registry.call, hlt] at hfound
    · refine .inl ⟨by simpa [Registry.call, List.getElem?_set_ne (Ne.symm hm)] using hfound, ?_⟩
      intro connected' hcall
      cases hcall
      exact hm rfl

/-- A live session of the listener that was given the key: what a request must find. -/
def Target (s : Registry) (l : Listener) (k : CancelKey) (c : Cancellation) : Prop :=
  c.listener = l ∧ s.Registered c.session l k c.backendKey

theorem Tabled.target {s : Registry} (h : Tabled ls s) {l : Listener} (hl : l ∈ ls.all) (k : CancelKey)
    (c : Cancellation) : s.cancels (tableKey l k) = some c ↔ Target s l k c := by
  rw [h.entries]
  constructor
  · rintro ⟨k', hreg, hkey⟩
    obtain ⟨rfl, rfl⟩ := tableKey_injective ls hl (hreg.listener h) hkey
    exact ⟨rfl, hreg⟩
  · rintro ⟨rfl, hreg⟩
    exact ⟨k, hreg, rfl⟩

structure Effects (s s' : Registry) (called : Option Cancellation) (connected : Bool) : Prop where
  cancelled : s'.cancelled = s.cancelled ++ called.toList.map (·.session)
  sent : s'.sent = s.sent ++ if connected then
    called.toList.map (fun c => (c.listener.upstream, putBE 4 cancelCode ++ c.backendKey)) else []

def ServerStep.calls : ServerStep → Option (ℕ × Bool)
  | .cancel h connected => some (h, connected)
  | _ => none

theorem effects_none {s s' : Registry} (connected : Bool) (hc : s'.cancelled = s.cancelled)
    (hs : s'.sent = s.sent) : Effects s s' none connected := by
  refine ⟨by simp [hc], ?_⟩
  cases connected <;> simp [hs]

theorem Does.effects {s s' : Registry} {x : ServerStep} {out : Option Cancellation} (hdoes : Does ls s x out s') :
    (x.calls = none → Effects s s' none false) ∧
      ∀ h connected, x = .cancel h connected → Effects s s' out connected := by
  cases hdoes with
  | idle => exact ⟨fun _ => effects_none _ rfl rfl, fun _ _ _ => effects_none _ rfl rfl⟩
  | start i l hl => exact ⟨fun _ => effects_none _ rfl rfl, fun _ _ hx => nomatch hx⟩
  | register n x k body hx hlive hnone => exact ⟨fun _ => effects_none _ rfl rfl, fun _ _ hx => nomatch hx⟩
  | finish _ n x hx hlive hnot => exact ⟨fun _ => effects_none _ rfl rfl, fun _ _ _ => effects_none _ rfl rfl⟩
  | lookup i packet key => exact ⟨fun _ => effects_none _ rfl rfl, fun _ _ hx => nomatch hx⟩
  | call h connected c hc =>
    refine ⟨fun hx => (nomatch hx), fun h' connected' hx => ?_⟩
    cases hx
    exact ⟨rfl, rfl⟩

theorem Does.keeps {s s' : Registry} {x : ServerStep} {out : Option Cancellation} (hdoes : Does ls s x out s')
    {h : ℕ} {c : Cancellation} (hfound : s.found[h]? = some (some c)) (hx : ∀ connected, x ≠ .cancel h connected) :
    s'.found[h]? = some (some c) := by
  cases hdoes with
  | idle => exact hfound
  | start i l hl => exact hfound
  | register n x k body hx hlive hnone => exact hfound
  | finish _ n x hx hlive hnot => exact hfound
  | lookup i packet key =>
    exact (List.getElem?_append_left (List.getElem?_eq_some_iff.mp hfound).1).trans hfound
  | call m connected c' hc' =>
    have hm : m ≠ h := by
      rintro rfl
      exact hx connected rfl
    exact (List.getElem?_set_ne hm).trans hfound

theorem Does.looks {s s' : Registry} {x : ServerStep} {out : Option Cancellation} (hdoes : Does ls s x out s')
    {i : ℕ} {packet : Bytes} {c : Cancellation} (hx : x = .cancelRequest i packet) (hout : out = some c) :
    s'.found[s.found.length]? = some (some c) := by
  cases hdoes with
  | lookup i packet key =>
    rw [List.getElem?_append_right le_rfl, Nat.sub_self, hout]
    rfl
  | call h connected c hc => cases hx
  | _ => cases hout

theorem LookedUp.found {h m : ℕ} {c : Cancellation} (hlook : LookedUp ls steps h m c) :
    (serverAt ls steps (m+1)).found[h]? = some (some c) := by
  obtain ⟨⟨i, packet, hx⟩, rfl, hout⟩ := hlook
  rw [serverRun_out hx] at hout
  rw [serverAt_succ hx]
  exact (serverStep_does ls _ _).looks rfl (Option.some.inj hout)

theorem serverAt_keeps {h m : ℕ} {c : Cancellation} (hfound : (serverAt ls steps m).found[h]? = some (some c))
    (n : ℕ) (hmn : m ≤ n) (hwait : ∀ j, m ≤ j → j < n → ∀ connected, steps[j]? ≠ some (.cancel h connected)) :
    (serverAt ls steps n).found[h]? = some (some c) := by
  induction n, hmn using Nat.le_induction with
  | base => exact hfound
  | succ n hmn ih =>
    have hn := ih (fun j hj hlt => hwait j hj (by omega))
    cases hx : steps[n]? with
    | none =>
      rw [serverAt_of_le (List.getElem?_eq_none_iff.mp hx)]
      exact hn
    | some x =>
      rw [serverAt_succ hx]
      refine (serverStep_does ls _ x).keeps hn (fun connected hcall => ?_)
      exact hwait n hmn (by omega) connected (hx.trans (congrArg some hcall))

theorem serverAt_found_iff (n h : ℕ) (c : Cancellation) : (serverAt ls steps n).found[h]? = some (some c) ↔
    ∃ m < n, LookedUp ls steps h m c ∧
      ∀ j, m < j → j < n → ∀ connected, steps[j]? ≠ some (.cancel h connected) := by
  constructor
  · intro hfound
    induction n with
    | zero => cases hfound
    | succ n ih =>
      cases hx : steps[n]? with
      | none =>
        rw [serverAt_of_le (List.getElem?_eq_none_iff.mp hx)] at hfound
        obtain ⟨m, hm, hlook, hwait⟩ := ih hfound
        refine ⟨m, by omega, hlook, fun j hj hlt connected hcall => ?_⟩
        by_cases hjn : j = n
        · rw [hjn, hx] at hcall
          cases hcall
        · exact hwait j hj (by omega) connected hcall
      | some x =>
        rw [serverAt_succ hx] at hfound
        obtain ⟨hold, hother⟩ | ⟨⟨i, packet, rfl⟩, hlen, hout⟩ := (serverStep_does ls _ x).found h c hfound
        · obtain ⟨m, hm, hlook, hwait⟩ := ih hold
          refine ⟨m, by omega, hlook, fun j hj hlt connected hcall => ?_⟩
          by_cases hjn : j = n
          · rw [hjn, hx] at hcall
            exact hother connected (Option.some.inj hcall)
          · exact hwait j hj (by omega) connected hcall
        · refine ⟨n, by omega, ⟨⟨i, packet, hx⟩, hlen, by rw [serverRun_out hx, hout]⟩, ?_⟩
          intro j hj hlt
          omega
  · rintro ⟨m, hm, hlook, hwait⟩
    exact serverAt_keeps hlook.found n hm (fun j hj => hwait j hj)

end Run

structure CancelLaw (ls : Listeners) (steps : List ServerStep) : Prop where
  /-- Exactly one entry for each live session with its key, which captures that session. -/
  one : ∀ n m l k b, (serverAt ls steps n).Registered m l k b →
    (serverAt ls steps n).cancels (tableKey l k) = some ⟨m, l, b⟩ ∧
      ∀ key c, (serverAt ls steps n).cancels key = some c → c.session = m → key = tableKey l k
  /-- No entry for any other session, in particular for one that has ended. -/
  live : ∀ n key c, (serverAt ls steps n).cancels key = some c →
    ∃ k, (serverAt ls steps n).Registered c.session c.listener k c.backendKey
  /-- A request finds the live session of its listener that was given its key, and only that one. -/
  found : ∀ n i packet l k, steps[n]? = some (.cancelRequest i packet) → ls.all[i]? = some l →
    cancelPacket packet = some k →
    (∀ c, (serverRun ls steps).1[n]? = some (some c) ↔ Target (serverAt ls steps n) l k c) ∧
      ∀ m m' b b', (serverAt ls steps n).Registered m l k b → (serverAt ls steps n).Registered m' l k b' → m = m'
  /-- The request then calls what it has found, once: this cancels the session and sends its backend key
  to the upstream of its listener. -/
  called : ∀ n h connected, steps[n]? = some (.cancel h connected) → ∃ out,
    (serverRun ls steps).1[n]? = some out ∧
    Effects (serverAt ls steps n) (serverAt ls steps (n+1)) out connected ∧
    ∀ c, out = some c ↔ ∃ m < n, LookedUp ls steps h m c ∧
      ∀ j, m < j → j < n → ∀ connected, steps[j]? ≠ some (.cancel h connected)
  /-- Nothing else cancels a session or sends a backend key. -/
  only : ∀ n x, steps[n]? = some x → x.calls = none →
    Effects (serverAt ls steps n) (serverAt ls steps (n+1)) none false
  separate : ∀ l ∈ ls.all, ∀ l' ∈ ls.all, ∀ k k', tableKey l k = tableKey l' k' → l = l' ∧ k = k'

def twoListeners : Listeners := ⟨[⟨"db", "a:5432"⟩, ⟨"db1", "b:5432"⟩], by decide⟩

def evenKey (b : UInt8) : CancelKey := ⟨List.replicate 8 b, by simp⟩

/-- A session of each listener gets a key; the first one is cancelled while the second one ends. -/
def twoSessions : List ServerStep :=
  [.start 0, .start 1, .backendKey 0 (some (evenKey 49)) (List.replicate 8 7),
    .backendKey 1 (some (evenKey 50)) (List.replicate 8 9),
    .cancelRequest 0 (putBE 4 cancelCode ++ List.replicate 8 49), .finish 1, .cancel 0 true]

end Faultline.PostgreSQL
