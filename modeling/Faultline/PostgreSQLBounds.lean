import Faultline.MySQLBounds
import Faultline.PostgreSQLCancel
import Faultline.PostgreSQLSession
import Faultline.PostgreSQLStartup

/-! A PostgreSQL session from its first packet on, the same session with every index and slice
expression of the code as a read that panics out of range, and that the two are one. -/
namespace Faultline.PostgreSQL

def maxStartup : ℕ := 10 * 2^10

def sslRequest : ℕ := 80877103

def streamFrames (r : Reader) : List Frame := (frameWire.receiveMany r.bytes.length r).1

/-- The other end of a connection: the stream it sends, and what can be written to it. -/
structure Peer where
  stream : Reader
  sink : Sink

/-- What a session has to do with: whether the listener has a TLS configuration, the client before and
after the TLS handshake, whether there is a free slot, the upstream if it can be reached, the key that
is drawn for the client and what `exchange` will wait for. -/
structure Setting where
  endpoint : Endpoint
  tls : Bool
  client : Peer
  clientTLS : Option Peer
  slot : Bool
  upstream : Option Peer
  key : Option CancelKey
  service : Service
  inputs : List Input

inductive Startup where
  | stop (client : Peer)
  | cancel (key : Bytes)
  | session (packet : Bytes) (client : Peer)

def Peer.refuse (c : Peer) : Startup := .stop { c with sink := (c.sink.write rejection.bytes).2 }

def Peer.firstPacket (c : Peer) : Option (Bytes × Peer) :=
  (receivePacket maxStartup c.stream).1.map (fun b => (b, ⟨(receivePacket maxStartup c.stream).2, c.sink⟩))

def Setting.answerTLS (x : Setting) (c : Peer) : Option Peer :=
  let answer := bytesOf (if x.tls then "S" else "N")
  if (c.sink.write answer).1 then
    if x.tls then x.clientTLS else some ⟨c.stream, (c.sink.write answer).2⟩
  else none

def startSession (x : Setting) (secure : Bool) (b : Bytes) (c : Peer) : Startup :=
  match cancelPacket b with
  | some k => .cancel k.bytes
  | none =>
    if x.tls ∧ ¬ secure then c.refuse
    else if ¬ x.slot then c.refuse
    else if ¬ validStartup b then c.refuse
    else .session b c

def startup (x : Setting) : Startup :=
  match x.client.firstPacket with
  | none => .stop x.client
  | some (b, c) =>
    if b.length = 4 ∧ beNat (b.take 4) = sslRequest then
      match x.answerTLS c with
      | none => .stop c
      | some c =>
        match c.firstPacket with
        | none => .stop c
        | some (b, c) => startSession x x.tls b c
    else startSession x false b c

inductive Conclusion where
  | startup (s : Startup)
  | unreachable
  | refused (a : Auth)
  | exchanged (r : List (Option Decision) × Session)

/-- The rest of `serve`, with a packet that is passed on to the upstream. -/
def passOn (x : Setting) (b : Bytes) (c : Peer) : Conclusion :=
  match x.upstream with
  | none => .unreachable
  | some u =>
    let write := u.sink.write (putBE 4 (b.length + 4) ++ b)
    if ¬ write.1 then .unreachable
    else
      let r := authenticate x.key (streamFrames c.stream) (streamFrames u.stream) c.sink write.2
      if r.1 then .exchanged (exchange x.endpoint (.start x.service r.2.client r.2.upstream) x.inputs)
      else .refused r.2

def serve (x : Setting) : Conclusion :=
  match startup x with
  | .session b c => passOn x b c
  | s => .startup s

namespace Checked

/-- The loop of `validStartup` over every other field, from `i` on. -/
def namesLoop (fields : List Bytes) : ℕ → ℕ → Option Bool
  | 0, _ => some true
  | n+1, i =>
    if i < fields.length - 1 then do
      let name ← fields[i]?
      if name.length = 0 ∨ name = replication then return false else namesLoop fields n (i+2)
    else some true

def validStartup (b : Bytes) : Option Bool := do
  if b.length < 5 then return false
  else if (← bigEndian 4 (← slice b 0 4)) ≠ 196608 then return false
  else if (← byteAt b (b.length - 1)) ≠ 0 then return false
  else
    let fields := (← slice b 4 (b.length - 1)).splitOn 0
    if fields.length % 2 ≠ 1 then return false
    else if (← fields[fields.length - 1]?).length ≠ 0 then return false
    else namesLoop fields fields.length 0

def isSSLRequest (b : Bytes) : Option Bool :=
  if b.length = 4 then do return (← bigEndian 4 b) = sslRequest else return false

def isCancelRequest (b : Bytes) : Option Bool :=
  if b.length = 12 then do return (← bigEndian 4 (← slice b 0 4)) = cancelCode else return false

def startSession (x : Setting) (secure : Bool) (b : Bytes) (c : Peer) : Option Startup := do
  if ← isCancelRequest b then return .cancel (← sliceFrom b 4)
  else if x.tls ∧ ¬ secure then return c.refuse
  else if ¬ x.slot then return c.refuse
  else if ¬ (← validStartup b) then return c.refuse
  else return .session b c

def startup (x : Setting) : Option Startup :=
  match x.client.firstPacket with
  | none => return .stop x.client
  | some (b, c) => do
    if ← isSSLRequest b then
      match x.answerTLS c with
      | none => return .stop c
      | some c =>
        match c.firstPacket with
        | none => return .stop c
        | some (b, c) => startSession x x.tls b c
    else startSession x false b c

/-- The body is read behind the code only where the stage is the right one. -/
def authStage (code : ℕ) (body : Bytes) (stage : ℕ) : Option (Option ℕ) := do
  if code = 10 then
    if stage ≠ 0 then return none
    else if ¬ bytesOf "SCRAM-SHA-256\x00" <:+: (← sliceFrom body 4) then return none
    else return some 1
  else if code = 11 then return if stage ≠ 1 then none else some 2
  else if code = 12 then return if stage ≠ 2 then none else some 3
  else if code = 0 then return if stage ≠ 3 then none else some 4
  else return none

def initialAnswer (body : Bytes) : Option Bool :=
  match cut 0 body with
  | (_, none) => return false
  | (name, some data) => do
    if name ≠ bytesOf "SCRAM-SHA-256" then return false
    else if data.length < 4 then return false
    else if (← bigEndian 4 data) ≠ data.length - 4 then return false
    else return (bytesOf "n,,").isPrefixOf (← sliceFrom data 4)

def authAnswer (a : Auth) (code : ℕ) : Option AuthNext :=
  match a.answers with
  | [] => return .stop false a
  | response :: answers => do
    let a := { a with answers := answers }
    if response.kind ≠ 'p'.toUInt8 then return a.reject
    else if ¬ (← if code = 10 then initialAnswer response.body else pure true) then return a.reject
    else if (a.upstream.write response.bytes).1 then
      return .go { a with upstream := (a.upstream.write response.bytes).2 }
    else return .stop false { a with upstream := (a.upstream.write response.bytes).2 }

def authRequest (a : Auth) (f : Frame) : Option AuthNext := do
  if f.body.length < 4 then return a.reject
  else
    let code ← bigEndian 4 f.body
    match ← authStage code f.body a.stage with
    | none => return a.reject
    | some stage =>
      let a' := { a with stage := stage, client := (a.client.write f.bytes).2 }
      if !(a.client.write f.bytes).1 then return .stop false a'
      else if code = 10 ∨ code = 11 then authAnswer a' code
      else return .go a'

def authReady (a : Auth) (f : Frame) : Option AuthNext := do
  if a.stage ≠ 4 then return .stop false a
  else if f.body.length ≠ 1 then return .stop false a
  else if (← byteAt f.body 0) ≠ 'I'.toUInt8 then return .stop false a
  else return .stop (a.client.write f.bytes).1 { a with client := (a.client.write f.bytes).2 }

def authStep (key : Option CancelKey) (a : Auth) (f : Frame) : Option AuthNext :=
  if f.kind = 'R'.toUInt8 then authRequest a f
  else if f.kind = 'K'.toUInt8 then return authKey key a f
  else if f.kind = 'Z'.toUInt8 then authReady a f
  else if f.kind = 'E'.toUInt8 then
    return .stop false { a with client := (a.client.write f.bytes).2 }
  else if f.kind = 'S'.toUInt8 ∨ f.kind = 'N'.toUInt8 then return a.forward f
  else return a.reject

def authLoop (key : Option CancelKey) : Auth → List Frame → Option (Bool × Auth)
  | a, [] => return (false, a)
  | a, f :: back => do
    match ← authStep key a f with
    | .go a' => authLoop key a' back
    | .stop ok a' => return (ok, a')

def authenticate (key : Option CancelKey) (front back : List Frame) (client upstream : Sink) :
    Option (Bool × Auth) :=
  authLoop key ⟨0, none, front, client, upstream⟩ back

def readyStep (s : Session) (f : Frame) (m : Moment) : Option Session := do
  if f.body.length ≠ 1 then return s.refuse m
  else if (← byteAt f.body 0) ∉ bytesOf "ITE" then return s.refuse m
  else
    let s' := { s with
      transaction := (← byteAt f.body 0) ≠ 'I'.toUInt8
      awaiting := false
      client := (s.client.write f.bytes).2 }
    return if (s.client.write f.bytes).1 then s'.finish s'.outcome m else s'.close m

def backStep (e : Endpoint) (s : Session) (f : Frame) (m : Moment) : Option (Option Decision × Session) :=
  if f.kind ∉ backKinds then return (none, s.refuse m)
  else
    let s := if f.kind = 'E'.toUInt8 then { s with outcome := "upstream_error" } else s
    if f.kind = 'C'.toUInt8 then
      if f.body = bytesOf "BEGIN\x00" then return (none, { s with transaction := true }.toClient f m)
      else if f.body = bytesOf "ROLLBACK\x00" then return (none, { s with transaction := false }.toClient f m)
      else if f.body = bytesOf "COMMIT\x00" ∧ s.transaction ∧ s.active ∧ !s.decided then
        return commitStep e s f m
      else return (none, s.toClient f m)
    else if f.kind = 'Z'.toUInt8 then do return (none, ← readyStep s f m)
    else return (none, s.toClient f m)

def exchangeStep (e : Endpoint) (s : Session) : Input → Option (Option Decision × Session)
  | .back f m => if s.closed then return (none, s) else backStep e s f m
  | i => return PostgreSQL.exchangeStep e s i

def exchange (e : Endpoint) : Session → List Input → Option (List (Option Decision) × Session) :=
  runChecked (exchangeStep e)

def passOn (x : Setting) (b : Bytes) (c : Peer) : Option Conclusion :=
  match x.upstream with
  | none => return .unreachable
  | some u => do
    let write := u.sink.write (putBE 4 (b.length + 4) ++ b)
    if ¬ write.1 then return .unreachable
    else
      let r ← authenticate x.key (streamFrames c.stream) (streamFrames u.stream) c.sink write.2
      if r.1 then
        return .exchanged (← exchange x.endpoint (.start x.service r.2.client r.2.upstream) x.inputs)
      else return .refused r.2

def serve (x : Setting) : Option Conclusion := do
  match ← startup x with
  | .session b c => passOn x b c
  | s => return .startup s

end Checked

/-! The startup. -/

theorem slice_front (b : Bytes) (k : ℕ) (h : k ≤ b.length) : slice b 0 k = some (b.take k) :=
  slice_eq b 0 k (by omega) h

theorem code_front (b : Bytes) (h : 4 ≤ b.length) : bigEndian 4 (b.take 4) = some (beNat (b.take 4)) := by
  rw [bigEndian_eq 4 _ (by rw [List.length_take_of_le h]), List.take_take, Nat.min_self]

/-- The loop goes over the fields in pairs. The last field, which is alone, is not looked at. -/
theorem namesLoop_eq (fields : List Bytes) (n i : ℕ) (hodd : fields.length % 2 = 1) (heven : i % 2 = 0)
    (hn : fields.length ≤ i + n) : Checked.namesLoop fields n i = some (namesValid (fields.drop i)) := by
  induction n generalizing i with
  | zero =>
    rw [List.drop_eq_nil_of_le (by omega)]
    rfl
  | succ n ih =>
    rw [Checked.namesLoop]
    by_cases hi : i < fields.length - 1
    · have hdrop : fields.drop i = fields[i] :: fields[i+1] :: fields.drop (i+2) := by
        rw [List.drop_eq_getElem_cons (by omega), List.drop_eq_getElem_cons (by omega)]
      rw [if_pos hi, List.getElem?_eq_getElem (by omega), Option.bind_eq_bind, Option.bind_some, hdrop, namesValid,
        ih (i+2) (by omega) (by omega)]
      by_cases hbad : fields[i].length = 0 ∨ fields[i] = replication
      · rw [if_pos hbad, ← Bool.decide_or, decide_eq_true hbad]
        rfl
      · rw [if_neg hbad, ← Bool.decide_or, decide_eq_false hbad]
        rfl
    · rw [if_neg hi]
      by_cases hlast : i = fields.length - 1
      · rw [List.drop_eq_getElem_cons (by omega), List.drop_eq_nil_of_le (by omega)]
        rfl
      · rw [List.drop_eq_nil_of_le (by omega)]
        rfl

theorem checked_validStartup (b : Bytes) : Checked.validStartup b = some (validStartup b) := by
  rw [Checked.validStartup, validStartup]
  by_cases hshort : b.length < 5
  · rw [if_pos hshort, if_pos (by simp [hshort])]
    rfl
  rw [if_neg hshort, slice_front b 4 (by omega)]
  simp only [Option.bind_eq_bind, Option.bind_some, code_front b (by omega)]
  by_cases hversion : beNat (b.take 4) = 196608
  swap
  · rw [if_pos hversion, if_pos (by simp [hversion])]
    rfl
  obtain ⟨last, hread⟩ : ∃ last, byteAt b (b.length - 1) = some last := ⟨_, byteAt_eq b _ (by omega)⟩
  have hlast : b.getLast? = some last := List.getLast?_eq_getElem?.trans hread
  rw [if_neg (not_not.mpr hversion), hread, Option.bind_some]
  by_cases hzero : last = 0
  swap
  · rw [if_pos hzero, if_pos (by rw [hlast]; simp [hzero])]
    rfl
  rw [if_neg (not_not.mpr hzero), if_neg (by rw [hlast]; simp [hzero, hversion, hshort]),
    slice_eq b 4 (b.length - 1) (by omega) (by omega), Option.bind_some]
  generalize ((b.take (b.length - 1)).drop 4).splitOn 0 = fields
  by_cases hodd : fields.length % 2 = 1
  swap
  · rw [if_pos hodd, if_pos (by simp [hodd])]
    rfl
  have hfield : fields[fields.length - 1]? = some (fields[fields.length - 1]) := List.getElem?_eq_getElem (by omega)
  have hend : fields.getLast?.getD [] = fields[fields.length - 1] := by
    rw [List.getLast?_eq_getElem?, hfield, Option.getD_some]
  rw [if_neg (not_not.mpr hodd), hfield, Option.bind_some, hend]
  by_cases hempty : fields[fields.length - 1].length = 0
  · rw [if_neg (not_not.mpr hempty), if_neg (by simp [hodd, hempty]),
      namesLoop_eq fields fields.length 0 hodd rfl (by omega), List.drop_zero]
  · rw [if_pos hempty, if_pos (by simp [hempty])]
    rfl

theorem checked_isSSLRequest (b : Bytes) :
    Checked.isSSLRequest b = some (Decidable.decide (b.length = 4 ∧ beNat (b.take 4) = sslRequest)) := by
  rw [Checked.isSSLRequest]
  by_cases hlen : b.length = 4
  · rw [if_pos hlen, bigEndian_eq 4 b (by omega)]
    simp [hlen]
  · rw [if_neg hlen]
    simp [hlen]

theorem checked_startSession (x : Setting) (secure : Bool) (b : Bytes) (c : Peer) :
    Checked.startSession x secure b c = some (startSession x secure b c) := by
  rw [Checked.startSession, startSession, Checked.isCancelRequest, checked_validStartup]
  by_cases hcancel : b.length = 12 ∧ beNat (b.take 4) = cancelCode
  · obtain ⟨hlen, hcode⟩ := hcancel
    rw [cancelPacket, dif_pos ⟨hlen, hcode⟩, if_pos hlen, slice_front b 4 (by omega), sliceFrom_eq b 4 (by omega)]
    simp only [Option.bind_eq_bind, Option.bind_some, code_front b (by omega), hcode]
    rfl
  · have hrequest : Checked.isCancelRequest b = some false := by
      rw [Checked.isCancelRequest]
      by_cases hlen : b.length = 12
      · rw [if_pos hlen, slice_front b 4 (by omega)]
        simp only [Option.bind_eq_bind, Option.bind_some, code_front b (by omega)]
        exact congrArg some (decide_eq_false (fun hcode => hcancel ⟨hlen, hcode⟩))
      · exact if_neg hlen
    rw [Checked.isCancelRequest] at hrequest
    rw [cancelPacket, dif_neg hcancel, hrequest]
    simp only [Option.bind_eq_bind, Option.bind_some, Bool.false_eq_true, if_false]
    split_ifs <;> rfl

theorem checked_startup (x : Setting) : Checked.startup x = some (startup x) := by
  rw [Checked.startup, startup]
  cases x.client.firstPacket with
  | none => rfl
  | some first =>
    simp only [checked_isSSLRequest, Option.bind_eq_bind, Option.bind_some, decide_eq_true_eq]
    split_ifs
    · cases x.answerTLS first.2 with
      | none => rfl
      | some c =>
        simp only
        cases c.firstPacket with
        | none => rfl
        | some second => exact checked_startSession x x.tls second.1 second.2
    · exact checked_startSession x false first.1 first.2

/-! Authentication. -/

theorem checked_authStage (code : ℕ) (body : Bytes) (stage : ℕ) (h : 4 ≤ body.length) :
    Checked.authStage code body stage = some (authStage code (body.drop 4) stage) := by
  rw [Checked.authStage, authStage, sliceFrom_eq body 4 h]
  simp only [Option.bind_eq_bind, Option.bind_some]
  by_cases hcode : code = 10
  · rw [if_pos hcode, if_pos hcode]
    by_cases hstage : stage ≠ 0
    · rw [if_pos hstage, if_pos (Or.inl hstage)]
      rfl
    · simp only [hstage, false_or, if_false]
      split_ifs <;> rfl
  · rw [if_neg hcode, if_neg hcode]
    split_ifs <;> rfl

theorem checked_initialAnswer (body : Bytes) : Checked.initialAnswer body = some (initialAnswer body) := by
  rw [Checked.initialAnswer, initialAnswer]
  cases cut 0 body with
  | mk name rest =>
    cases rest with
    | none => rfl
    | some data =>
      simp only
      by_cases hname : name = bytesOf "SCRAM-SHA-256"
      swap
      · rw [if_pos hname, decide_eq_false hname]
        rfl
      by_cases hlen : data.length < 4
      · rw [if_neg (not_not.mpr hname), if_pos hlen, decide_eq_false (not_le.mpr hlen), Bool.and_false]
        rfl
      rw [if_neg (not_not.mpr hname), if_neg hlen, bigEndian_eq 4 data (by omega), sliceFrom_eq data 4 (by omega)]
      simp only [Option.bind_eq_bind, Option.bind_some]
      by_cases hsize : beNat (data.take 4) = data.length - 4
      · rw [if_neg (not_not.mpr hsize), decide_eq_true hname, decide_eq_true (not_lt.mp hlen), decide_eq_true hsize]
        rfl
      · rw [if_pos hsize, decide_eq_false hsize, Bool.and_false]
        rfl

theorem checked_authAnswer (a : Auth) (code : ℕ) : Checked.authAnswer a code = some (authAnswer a code) := by
  rw [Checked.authAnswer, authAnswer]
  cases a.answers with
  | nil => rfl
  | cons response answers =>
    simp only
    by_cases hkind : response.kind ≠ 'p'.toUInt8
    · rw [if_pos hkind, if_pos hkind]
      rfl
    rw [if_neg hkind, if_neg hkind]
    by_cases hcode : code = 10
    · rw [if_pos hcode, checked_initialAnswer]
      simp only [hcode, true_and, Option.bind_eq_bind, Option.bind_some]
      split_ifs <;> rfl
    · rw [if_neg hcode]
      simp only [hcode, false_and, if_false, Option.pure_def, Option.bind_eq_bind, Option.bind_some,
        not_true_eq_false]
      split_ifs <;> rfl

theorem checked_authRequest (a : Auth) (f : Frame) : Checked.authRequest a f = some (authRequest a f) := by
  rw [Checked.authRequest, authRequest]
  by_cases hshort : f.body.length < 4
  · rw [if_pos hshort, if_pos hshort]
    rfl
  rw [if_neg hshort, if_neg hshort, bigEndian_eq 4 f.body (by omega)]
  simp only [Option.bind_eq_bind, Option.bind_some, checked_authStage _ f.body a.stage (not_lt.mp hshort)]
  cases authStage (beNat (f.body.take 4)) (f.body.drop 4) a.stage with
  | none => rfl
  | some stage =>
    simp only [checked_authAnswer]
    split_ifs <;> rfl

theorem checked_authReady (a : Auth) (f : Frame) : Checked.authReady a f =
    some (if a.stage ≠ 4 ∨ f.body ≠ bytesOf "I" then .stop false a
      else .stop (a.client.write f.bytes).1 { a with client := (a.client.write f.bytes).2 }) := by
  have hready : bytesOf "I" = ['I'.toUInt8] := by decide +kernel
  rw [Checked.authReady, hready]
  by_cases hstage : a.stage ≠ 4
  · rw [if_pos hstage, if_pos (Or.inl hstage)]
    rfl
  rw [if_neg hstage]
  by_cases hlen : f.body.length ≠ 1
  · rw [if_pos hlen, if_pos (Or.inr (fun h => hlen (by rw [h]; rfl)))]
    rfl
  obtain ⟨x, hx⟩ := List.length_eq_one_iff.mp (not_not.mp hlen)
  rw [if_neg hlen, hx, byteAt_zero]
  simp only [hstage, false_or, Option.bind_eq_bind, Option.bind_some, ne_eq, List.cons.injEq, and_true]
  split_ifs <;> rfl

theorem checked_authStep (key : Option CancelKey) (a : Auth) (f : Frame) :
    Checked.authStep key a f = some (authStep key a f) := by
  rw [Checked.authStep, authStep, checked_authRequest, checked_authReady]
  split_ifs <;> rfl

theorem checked_authLoop (key : Option CancelKey) (a : Auth) (back : List Frame) :
    Checked.authLoop key a back = some (authLoop key a back) := by
  induction back generalizing a with
  | nil => rfl
  | cons f back ih =>
    rw [Checked.authLoop, authLoop, checked_authStep, Option.bind_eq_bind, Option.bind_some]
    cases authStep key a f with
    | go a' => exact ih a'
    | stop ok a' => rfl

/-! The exchange. -/

theorem checked_readyStep (s : Session) (f : Frame) (m : Moment) :
    Checked.readyStep s f m = some (readyStep s f m) := by
  rw [Checked.readyStep, readyStep]
  by_cases hlen : f.body.length ≠ 1
  · rw [if_pos hlen, if_pos (Or.inl hlen)]
    rfl
  obtain ⟨x, hx⟩ := List.length_eq_one_iff.mp (not_not.mp hlen)
  rw [if_neg hlen, hx, byteAt_zero, List.headD_cons, List.length_singleton]
  simp only [ne_eq, not_true_eq_false, false_or, Option.bind_eq_bind, Option.bind_some]
  split_ifs <;> rfl

theorem checked_backStep (e : Endpoint) (s : Session) (f : Frame) (m : Moment) :
    Checked.backStep e s f m = some (backStep e s f m) := by
  rw [Checked.backStep, backStep]
  simp only [checked_readyStep, Option.bind_eq_bind, Option.bind_some]
  split_ifs <;> rfl

theorem checked_exchangeStep (e : Endpoint) (s : Session) (i : Input) :
    Checked.exchangeStep e s i = some (exchangeStep e s i) := by
  cases i with
  | done m => rfl
  | front f m => rfl
  | control op => rfl
  | back f m =>
    rw [Checked.exchangeStep, exchangeStep, checked_backStep]
    split_ifs <;> rfl

theorem checked_passOn (x : Setting) (b : Bytes) (c : Peer) : Checked.passOn x b c = some (passOn x b c) := by
  rw [Checked.passOn, passOn]
  cases x.upstream with
  | none => rfl
  | some u =>
    simp only
    by_cases hwrite : ¬ (u.sink.write (putBE 4 (b.length + 4) ++ b)).1
    · rw [if_pos hwrite, if_pos hwrite]
      rfl
    rw [if_neg hwrite, if_neg hwrite, Checked.authenticate, checked_authLoop, Option.bind_eq_bind, Option.bind_some,
      authenticate]
    generalize authLoop x.key _ _ = r
    have hrun := runChecked_eq (checked_exchangeStep x.endpoint) (.start x.service r.2.client r.2.upstream) x.inputs
    rw [Checked.exchange, hrun]
    split_ifs <;> rfl

/-- No read of a session is out of range, whatever its peers send. -/
theorem checked_serve (x : Setting) : Checked.serve x = some (serve x) := by
  rw [Checked.serve, serve, checked_startup, Option.bind_eq_bind, Option.bind_some]
  cases startup x with
  | stop c => rfl
  | cancel key => rfl
  | session b c => exact checked_passOn x b c

end Faultline.PostgreSQL

namespace Faultline

/-- All index and slice expressions of the two adapters are in range, for every byte stream of either
peer, every way it is cut into reads and every order in which the packets of the two arrive. -/
theorem adapters_in_range : (∀ x, MySQL.Checked.serve x = some (MySQL.serve x)) ∧
    ∀ x, PostgreSQL.Checked.serve x = some (PostgreSQL.serve x) :=
  ⟨MySQL.checked_serve, PostgreSQL.checked_serve⟩

end Faultline
