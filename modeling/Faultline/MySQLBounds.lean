import Faultline.MySQLAuth
import Faultline.MySQLStatus
import Faultline.Panics
import Faultline.WireCodecs

/-! A MySQL session with every index and slice expression of the code as a read that panics out of
range, and that none of them does: the session is the one without such reads. -/
namespace Faultline.MySQL

def capDeprecateEOF : BitVec 32 := 1 <<< 24

def streamPackets (r : Reader) : List Packet := (packetWire.receiveMany r.bytes.length r).1

/-- The other end of a connection: the stream it sends, and what can be written to it. -/
structure Peer where
  stream : Reader
  sink : Sink

def Peer.line (p : Peer) : List Packet × Sink := (streamPackets p.stream, p.sink)

/-- What a session has to do with. The peers are different ones after the TLS handshakes. -/
structure Setting where
  lib : Library
  managed : Bool
  proxyID : String
  secure : Bool
  client : Peer
  upstream : Peer
  clientTLS : Option Peer
  upstreamTLS : Option Peer
  service : Service
  surroundings : List Surroundings

def Setting.upgrade (x : Setting) : Upgrade := ⟨x.upstreamTLS.map Peer.line, x.clientTLS.map Peer.line⟩

def Setting.start (x : Setting) : Handshake := .start x.client.line x.upstream.line

def Setting.endpoint (x : Setting) (flags : BitVec 32) : Endpoint :=
  ⟨x.lib, x.managed, x.proxyID, flags &&& capDeprecateEOF ≠ 0⟩

def Setting.session (x : Setting) (s : Handshake) : Session :=
  .start x.service (s.lines .client).sink (s.lines .upstream).sink (s.lines .upstream).incoming

def Setting.commands (x : Setting) (s : Handshake) : List (Packet × Surroundings) :=
  (s.lines .client).incoming.zip x.surroundings

/-- The part of `serve` that has a connection to the upstream. -/
def serve (x : Setting) : Option (List (Option CycleRecord) × Session) :=
  match authenticate x.secure x.upgrade x.start with
  | .error _ _ => none
  | .ok flags s => some (exchange (x.endpoint flags) (x.session s) (x.commands s))

namespace Checked

/-- `PutUint16` at an offset. -/
def putUint16 (b : Bytes) (i n : ℕ) : Option Bytes := do
  let tail ← sliceFrom b i
  if 2 ≤ tail.length then some (MySQL.putUint16 b i n) else none

def capsAt (b : Bytes) (lo : ℕ) : Option (BitVec 32) := do
  let low ← littleEndian 2 (← sliceFrom b lo)
  let high ← littleEndian 2 (← sliceFrom b (lo+5))
  return BitVec.ofNat 32 low ||| BitVec.ofNat 32 high <<< 16

def greeting (b : Bytes) (secure : Bool) : Option (Option (BitVec 32 × Bytes)) := do
  if b.length < 1 then return none
  else if (← byteAt b 0) ≠ 10 then return none
  else match (← sliceFrom b 1).findIdx? (· = 0) with
    | none => return none
    | some e =>
      let lo := 1 + e + 1 + 4 + 8 + 1
      if b.length < lo + 18 then return none
      else
        let flags ← capsAt b lo
        if flags &&& capProtocol41 = 0 ∨ flags &&& capPluginAuth = 0 ∨ ¬ pluginName <:+ b then return none
        else if secure ∧ flags &&& capSSL = 0 then return none
        else
          let flags := offerCaps flags secure
          let b ← putUint16 b lo (flags.toNat % 2^16)
          let b ← putUint16 b (lo+5) (flags.toNat / 2^16)
          return some (flags, b)

def authReply (p : Packet) : Option AuthReply := do
  let code ← byteAt p.body 0
  if code = 0 then
    if (← okStatus p.body) = none then return .refuse else return .finish
  else if code = 0xff then return .fail
  else if code = 0xfe then
    if pluginName.isPrefixOf (← sliceFrom p.body 1) then return .ask else return .refuse
  else if code = 1 then
    if p.body.length = 2 then
      let second ← byteAt p.body 1
      if second = 3 then return .pass else if second = 4 then return .ask else return .refuse
    else if (bytesOf "-----BEGIN PUBLIC KEY-----").isPrefixOf (← sliceFrom p.body 1) then return .ask
    else return .refuse
  else return .refuse

def authRounds : ℕ → UInt8 → EStateM (Failure SessionError) Handshake Unit
  | 0, _ => throw (.error .protocol)
  | n+1, seq => do
    let p ← total (receive .upstream seq)
    match ← index (authReply p) with
    | .finish => total (send .client p)
    | .fail =>
      let _ ← total (captureError (send .client p))
      throw (.error .protocol)
    | .refuse => throw (.error .protocol)
    | .pass =>
      total (send .client p)
      authRounds n (seq+1)
    | .ask =>
      total (send .client p)
      let answer ← total (receive .client (seq+1))
      total (send .upstream answer)
      authRounds n (seq+1+1)

/-- `Uint32` of a response. -/
def responseCaps (b : Bytes) : Option (BitVec 32) := (littleEndian 4 b).map (BitVec.ofNat 32)

def handshakeResponse (secure : Bool) (upgrade : Upgrade) (offered : BitVec 32) :
    EStateM (Failure SessionError) Handshake (BitVec 32) := do
  let response ← total (receive .client 1)
  if response.body.length < 32 then
    throw (.error .protocol)
  let flags ← index (responseCaps response.body)
  if capsRefused flags offered then
    throw (.error .protocol)
  if secure then
    if flags &&& capSSL = 0 ∨ response.body.length ≠ 32 then
      throw (.error .protocol)
    total (send .upstream response)
    total (handshake .upstream upgrade.upstream)
    total (handshake .client upgrade.client)
    let response ← total (receive .client 2)
    if response.body.length ≤ 32 then
      throw (.error .protocol)
    if (← index (responseCaps response.body)) ≠ flags then
      throw (.error .protocol)
    total (send .upstream response)
    authRounds 12 3
    return flags
  else
    if flags &&& capSSL ≠ 0 then
      throw (.error .protocol)
    total (send .upstream response)
    authRounds 12 2
    return flags

/-- A packet that `writePacket` would refuse is an error. -/
def authenticate (secure : Bool) (upgrade : Upgrade) :
    EStateM (Failure SessionError) Handshake (BitVec 32) := do
  let hello ← total (receive .upstream 0)
  match ← index (greeting hello.body secure) with
  | none => throw (.error .protocol)
  | some (offered, b) =>
    match packetOf hello.seq b with
    | none => throw (.error .protocol)
    | some greeted =>
      total (send .client greeted)
      handshakeResponse secure upgrade offered

def definitionPackets : ℕ → EStateM (Failure SessionError) Cycle Unit
  | 0 => pure ()
  | n+1 => do
    let p ← total read
    if (← index (byteAt p.body 0)) = 0xff then
      throw (.error .protocol)
    total (forward p)
    definitionPackets n

def definitions (modern : Bool) (n : ℕ) : EStateM (Failure SessionError) Cycle Unit := do
  if 4096 < n then
    throw (.error .protocol)
  definitionPackets n
  if 0 < n ∧ ¬ modern then
    let p ← total read
    if (← index (eofStatus p.body false)) = none then
      throw (.error .protocol)
    total (forward p)

def rows (modern : Bool) : List Packet →
    EStateM (Failure SessionError) Cycle (ℕ × Bool × Except SessionError Unit)
  | [] => throw (.error .cancelled)
  | p :: back => do
    total (accept p back)
    if (← index (byteAt p.body 0)) = 0xff then
      return (0, false, ← total (captureError (forward p)))
    match ← index (eofStatus p.body modern) with
    | some flags =>
      if moreResults flags then
        throw (.error .protocol)
      return (flags, true, ← total (captureError (forward p)))
    | none =>
      total (forward p)
      rows modern back

def result (modern : Bool) (first : Packet) :
    EStateM (Failure SessionError) Cycle (ℕ × Bool × Except SessionError Unit) := do
  match ← index (lenenc first.body) with
  | none => throw (.error .protocol)
  | some (n, _) =>
    if n.toNat = 0 ∨ 4096 < n.toNat then
      throw (.error .protocol)
    total (forward first)
    definitions modern n.toNat
    rows modern (← get).back

def admission (statements : OrdMap ℕ Statement) (p : Packet) : Option Admission := do
  if p.seq ≠ 0 then return .refuse
  else
    let command ← byteAt p.body 0
    if command = 1 then return .quit
    else if command = 3 ∨ command = 0x16 then
      let kind := classify (← sliceFrom p.body 1)
      if kind = .unsupported then return .refuse
      else if command = 0x16 ∧ 128 ≤ statements.size then return .refuse
      else return .serve kind
    else if command = 0x17 then
      if p.body.length < 10 then return .refuse
      else if (← byteAt p.body 5) ≠ 0 then return .refuse
      else if (← littleEndian 4 (← sliceFrom p.body 6)) ≠ 1 then return .refuse
      else match statements.get? (← littleEndian 4 (← sliceFrom p.body 1)) with
        | none => return .refuse
        | some kind => return .serve kind
    else if command = 0x19 ∨ command = 0x1a then
      if p.body.length ≠ 5 then return .refuse else return .serve .ordinary
    else if command = 2 ∨ command = 0x0e ∨ command = 0x1f then return .serve .ordinary
    else return .refuse

def onCycle {α : Type} (m : EStateM (Failure SessionError) Cycle α) :
    EStateM (Failure SessionError) Session α :=
  zoom Session.cycle (fun s x => { s with cycle := x }) m

def prepared (modern : Bool) (kind : Statement) (first : Packet) :
    EStateM (Failure SessionError) Session Unit := do
  if first.body.length ≠ 12 then
    throw (.error .protocol)
  if (← index (byteAt first.body 0)) ≠ 0 then
    throw (.error .protocol)
  let id ← index (littleEndian 4 (← index (sliceFrom first.body 1)))
  if ((← get).statements.get? id).isSome then
    throw (.error .protocol)
  onCycle (total (forward first))
  let params ← index (littleEndian 2 (← index (sliceFrom first.body 7)))
  onCycle (definitions modern params)
  let columns ← index (littleEndian 2 (← index (sliceFrom first.body 5)))
  onCycle (definitions modern columns)
  modify (fun s => { s with statements := s.statements.insert id kind })

def acknowledged (e : Endpoint) (w : Surroundings) (snap : Snapshot) (command : Packet)
    (kind : Statement) (first : Packet) : EStateM (Failure SessionError) Session Unit := do
  match ← index (okStatus first.body) with
  | none => throw (.error .protocol)
  | some status =>
    if moreResults status then
      throw (.error .protocol)
    let confirmed := kind = .commit ∧ (← get).transaction ∧ ¬ inTrans status
    if ¬ inTrans status ∨ kind = .rollback then
      total (setTransaction false)
    if kind = .begin then
      total (setTransaction (inTrans status))
    if command.code = 0x1f then
      modify (fun s => { s with transaction := false, statements := ∅ })
    if confirmed then
      unless ← total (commit e w snap) do
        modify (fun s => { s with outcome := "commit_ack_lost" })
        throw (.error .protocol)
    onCycle (total (forward first))

def resultSet (modern : Bool) (first : Packet) : EStateM (Failure SessionError) Session Unit := do
  match ← captureFailure (onCycle (result modern first)) with
  | .error e =>
    total (setTransaction false)
    throw (.error e)
  | .ok (status, ok, err) =>
    if !ok ∨ ¬ inTrans status then
      total (setTransaction false)
    match err with
    | .error e => throw (.error e)
    | .ok () => return ()

def respond (e : Endpoint) (w : Surroundings) (snap : Snapshot) (command : Packet) (kind : Statement)
    (first : Packet) : EStateM (Failure SessionError) Session Unit := do
  if (← index (byteAt first.body 0)) = 0xff then
    modify (fun s => { s with transaction := false, outcome := "upstream_error" })
    onCycle (total (forward first))
  else if command.code = 0x16 then
    prepared e.modern kind first
  else if (← index (byteAt first.body 0)) = 0xfb then
    throw (.error .protocol)
  else if (← index (byteAt first.body 0)) = 0 then
    acknowledged e w snap command kind first
  else
    resultSet e.modern first

def serveCommand (e : Endpoint) (w : Surroundings) (snap : Snapshot) (command : Packet)
    (kind : Statement) : EStateM (Failure SessionError) Session Unit := do
  total (writeUpstream command)
  if command.code = 0x19 then
    let id ← index (littleEndian 4 (← index (sliceFrom command.body 1)))
    modify (fun s => { s with statements := s.statements.erase id })
  else
    let first ← onCycle (total read)
    respond e w snap command kind first

def exchangeStep (e : Endpoint) (s : Session) (input : Packet × Surroundings) :
    Option (Option CycleRecord × Session) := do
  if s.closed then return (none, s)
  else match ← admission s.statements input.1 with
    | .quit => return (none, { s with closed := true })
    | .refuse =>
      return (none, { s with
        closed := true
        cycle := { s.cycle with client := (s.cycle.client.write (rejection 1).bytes).2 } })
    | .serve kind =>
      let start := s.begin e input.2
      let r ← settled (serveCommand e input.2 start.service.acquire input.1 kind start)
      let after := finalState r
      return (some ⟨input.1, after.cycle.taken, after.decisions, stopError r⟩,
        after.finish input.2 (stopError r))

def exchange (e : Endpoint) : Session → List (Packet × Surroundings) →
    Option (List (Option CycleRecord) × Session) := runChecked (exchangeStep e)

def serve (x : Setting) : Option (Option (List (Option CycleRecord) × Session)) := do
  match ← settled (authenticate x.secure x.upgrade x.start) with
  | .error _ _ => return none
  | .ok flags s => return some (← exchange (x.endpoint flags) (x.session s) (x.commands s))

end Checked

/-! Reads that the length of a packet allows. -/

theorem byteAt_code (p : Packet) : byteAt p.body 0 = some p.code := by
  rw [byteAt_eq _ 0 (List.length_pos_of_ne_nil p.nonempty)]
  exact congrArg some (List.head_eq_getElem p.nonempty).symm

theorem sliceFrom_tail (p : Packet) : sliceFrom p.body 1 = some p.body.tail := by
  rw [sliceFrom_eq _ 1 (List.length_pos_of_ne_nil p.nonempty), List.drop_one]

theorem checked_putUint16 (b : Bytes) (i n : ℕ) (h : i + 2 ≤ b.length) :
    Checked.putUint16 b i n = some (putUint16 b i n) := by
  rw [Checked.putUint16, sliceFrom_eq b i (by omega), Option.bind_eq_bind, Option.bind_some, if_pos]
  rw [List.length_drop]
  omega

theorem checked_capsAt (b : Bytes) (lo : ℕ) (h : lo + 18 ≤ b.length) :
    Checked.capsAt b lo = some (capsAt b lo) := by
  have hlow : littleEndian 2 (b.drop lo) = some (uint16At b lo) := by
    apply littleEndian_eq
    rw [List.length_drop]
    omega
  have hhigh : littleEndian 2 (b.drop (lo+5)) = some (uint16At b (lo+5)) := by
    apply littleEndian_eq
    rw [List.length_drop]
    omega
  rw [Checked.capsAt, sliceFrom_eq b lo (by omega), sliceFrom_eq b (lo+5) (by omega)]
  simp only [Option.bind_eq_bind, Option.bind_some, hlow, hhigh]
  rfl

theorem checked_greeting (b : Bytes) (secure : Bool) :
    Checked.greeting b secure = some (greeting b secure) := by
  cases b with
  | nil => rfl
  | cons first rest =>
    rw [Checked.greeting, if_neg (by simp), byteAt_zero, Option.bind_eq_bind, Option.bind_some, greeting,
      List.head?_cons, capsOffset, List.tail_cons]
    by_cases hfirst : first = 10
    swap
    · rw [if_pos hfirst, if_pos (fun h => hfirst (Option.some.inj h))]
      rfl
    rw [if_neg (not_not.mpr hfirst), if_neg (not_not.mpr (congrArg some hfirst)),
      sliceFrom_eq _ 1 (by simp), Option.bind_eq_bind, Option.bind_some, List.drop_one, List.tail_cons]
    cases rest.findIdx? (· = 0) with
    | none => rfl
    | some e =>
      simp only [Option.map_some]
      obtain ⟨lo, hlo⟩ : ∃ lo, lo = 1 + e + 1 + 4 + 8 + 1 := ⟨_, rfl⟩
      rw [← hlo]
      by_cases hroom : (first :: rest).length < lo + 18
      · rw [if_pos hroom, if_pos hroom]
        rfl
      rw [if_neg hroom, if_neg hroom, checked_capsAt _ lo (by omega), Option.bind_eq_bind, Option.bind_some]
      split_ifs
      · rfl
      · rfl
      · rw [checked_putUint16 _ lo _ (by omega), Option.bind_some, checked_putUint16, Option.bind_some]
        · rfl
        · rw [length_putUint16 _ lo _ (by omega)]
          omega

theorem checked_authReply (p : Packet) : Checked.authReply p = some (authReply p) := by
  rw [Checked.authReply, byteAt_code, Option.bind_eq_bind, Option.bind_some, authReply, checked_okStatus,
    sliceFrom_tail]
  simp only [Option.bind_eq_bind, Option.bind_some]
  by_cases hmore : p.code = 1 ∧ p.body.length = 2
  · obtain ⟨hcode, hlen⟩ := hmore
    have hread := byteAt_eq p.body 1 (by omega)
    have hsecond : p.body[1]? = some (p.body.get ⟨1, by omega⟩) := hread
    rw [hcode, hlen, hread, hsecond]
    simp only [Option.bind_some, Option.some.injEq, if_true]
    split_ifs <;> rfl
  · split_ifs with h0 hok hff hfe hprefix h1 hlen
    all_goals first | rfl | exact absurd ⟨h1, hlen⟩ hmore

/-! Programs. -/

theorem checked_authRounds (n : ℕ) (seq : UInt8) : Checked.authRounds n seq = total (authRounds n seq) := by
  induction n generalizing seq with
  | zero => rfl
  | succ n ih =>
    rw [Checked.authRounds, authRounds, total_bind]
    congr 1
    funext p
    rw [index_bind (checked_authReply p)]
    cases authReply p with
    | finish => rfl
    | fail => simp only [total_bind, total_throw]
    | refuse => rfl
    | pass => simp only [total_bind, ih]
    | ask => simp only [total_bind, ih]

theorem checked_responseCaps (b : Bytes) (h : 32 ≤ b.length) :
    Checked.responseCaps b = some (responseCaps b) := by
  rw [Checked.responseCaps, littleEndian_eq 4 b (by omega)]
  rfl

theorem checked_handshakeResponse (secure : Bool) (upgrade : Upgrade) (offered : BitVec 32) :
    Checked.handshakeResponse secure upgrade offered = total (handshakeResponse secure upgrade offered) := by
  rw [Checked.handshakeResponse, handshakeResponse, total_bind]
  congr 1
  funext response
  rw [total_ite]
  by_cases hshort : response.body.length < 32
  · rw [if_pos hshort, if_pos hshort]
    rfl
  rw [if_neg hshort, if_neg hshort, index_bind (checked_responseCaps _ (by omega))]
  simp only [total_ite, total_bind, total_throw, total_pure, throw_bind, checked_authRounds]
  -- the answer over TLS is longer than the first one
  have hsecure (p : Packet) (flags : BitVec 32) (m : EStateM (Failure SessionError) Handshake (BitVec 32)) :
      (if p.body.length ≤ 32 then throw (.error .protocol)
        else index (Checked.responseCaps p.body) >>= fun caps =>
          if caps ≠ flags then throw (.error .protocol) else m) =
        if p.body.length ≤ 32 ∨ responseCaps p.body ≠ flags then throw (.error .protocol) else m := by
    by_cases hlen : p.body.length ≤ 32
    · rw [if_pos hlen, if_pos (Or.inl hlen)]
    · rw [if_neg hlen, index_bind (checked_responseCaps _ (by omega))]
      simp only [hlen, false_or]
  simp only [hsecure]

theorem offer_none {secure : Bool} {hello : Packet} (h : greeting hello.body secure = none) :
    offer secure hello = none := by
  unfold offer
  split
  · rfl
  · rename_i hsome
    rw [h] at hsome
    cases hsome

theorem offer_greeting {secure : Bool} {hello : Packet} {offered : BitVec 32} {b : Bytes}
    (h : greeting hello.body secure = some (offered, b)) :
    ∃ greeted, offer secure hello = some (offered, greeted) ∧ packetOf hello.seq b = some greeted := by
  refine ⟨hello.rewrite b (greeting_length h), ?_, packetOf_eq (hello.rewrite b (greeting_length h))⟩
  unfold offer
  split
  · rename_i hnone
    rw [h] at hnone
    cases hnone
  · rename_i hsome
    rw [h] at hsome
    cases hsome
    rfl

theorem checked_authenticate (secure : Bool) (upgrade : Upgrade) :
    Checked.authenticate secure upgrade = total (authenticate secure upgrade) := by
  rw [Checked.authenticate, authenticate, total_bind]
  congr 1
  funext hello
  rw [index_bind (checked_greeting hello.body secure)]
  cases hgreeting : greeting hello.body secure with
  | none =>
    rw [offer_none hgreeting]
    rfl
  | some r =>
    obtain ⟨offered, b⟩ := r
    obtain ⟨greeted, hoffer, hpacket⟩ := offer_greeting hgreeting
    rw [hoffer]
    simp only [hpacket, total_bind, checked_handshakeResponse]

theorem checked_definitionPackets (n : ℕ) : Checked.definitionPackets n = total (definitionPackets n) := by
  induction n with
  | zero => rfl
  | succ n ih =>
    rw [Checked.definitionPackets, definitionPackets, total_bind]
    congr 1
    funext p
    rw [index_bind (byteAt_code p)]
    simp only [total_ite, total_bind, total_throw, ih]

theorem checked_definitions (modern : Bool) (n : ℕ) :
    Checked.definitions modern n = total (definitions modern n) := by
  rw [Checked.definitions, definitions]
  simp only [total_ite, total_bind, total_throw, total_pure, checked_definitionPackets,
    index_bind (checked_eofStatus _ _)]

theorem checked_rows (modern : Bool) (back : List Packet) :
    Checked.rows modern back = total (rows modern back) := by
  induction back with
  | nil => rfl
  | cons p back ih =>
    rw [Checked.rows, rows, total_bind]
    congr 1
    funext _
    rw [index_bind (byteAt_code p), index_bind (checked_eofStatus p.body modern), total_ite]
    congr 1
    · simp only [total_bind, total_pure]
    · cases eofStatus p.body modern with
      | none => simp only [total_bind, ih]
      | some flags => simp only [total_ite, total_bind, total_throw, total_pure]

theorem lenenc_word {b : Bytes} {v n : ℕ} (h : lenenc b = some (v, n)) : (UInt64.ofNat v).toNat = v := by
  obtain ⟨e, rest, -, -, he⟩ := lenenc_some b v n h
  have hlt : v < 2^64 := by cases he <;> omega
  rw [UInt64.toNat_ofNat', Nat.mod_eq_of_lt hlt]

theorem checked_result (modern : Bool) (first : Packet) :
    Checked.result modern first = total (result modern first) := by
  rw [Checked.result, result, index_bind (checked_lenenc first.body)]
  cases hcount : lenenc first.body with
  | none => rfl
  | some r =>
    simp only [Option.map_some, asWord, lenenc_word hcount, total_ite, total_bind, total_throw, throw_bind,
      checked_definitions, checked_rows]
    rfl

theorem checked_admission (statements : OrdMap ℕ Statement) (p : Packet) :
    Checked.admission statements p = some (admission statements p) := by
  rw [Checked.admission, admission, byteAt_code, sliceFrom_tail]
  simp only [Option.bind_eq_bind, Option.bind_some]
  by_cases hseq : p.seq ≠ 0
  · rw [if_pos hseq, if_pos hseq]
    rfl
  rw [if_neg hseq, if_neg hseq]
  by_cases hexecute : p.code = 0x17
  swap
  · simp only [hexecute, if_false]
    split_ifs <;> rfl
  have hquit : ¬ (0x17 : UInt8) = 1 := by decide
  have hsql : ¬ ((0x17 : UInt8) = 3 ∨ (0x17 : UInt8) = 0x16) := by decide
  rw [hexecute, if_neg hquit, if_neg hquit, if_neg hsql, if_neg hsql, if_pos rfl, if_pos rfl]
  by_cases hshort : p.body.length < 10
  · rw [if_pos hshort, if_pos (Or.inl hshort)]
    rfl
  -- there are flags at 5 and a count at 6, and the number of the statement before them
  have hread := byteAt_eq p.body 5 (by omega)
  have hflags : p.body[5]? = some (p.body.get ⟨5, by omega⟩) := hread
  have hcount : littleEndian 4 (p.body.drop 6) = some (uint32At p.body 6) := by
    apply littleEndian_eq
    rw [List.length_drop]
    omega
  have hid : littleEndian 4 p.body.tail = some (uint32At p.body 1) := by
    rw [uint32At, List.drop_one]
    apply littleEndian_eq
    rw [List.length_tail]
    omega
  rw [if_neg hshort, hread, Option.bind_some, sliceFrom_eq _ 6 (by omega), hflags]
  simp only [Option.bind_some, hcount, hid, hshort, false_or, ne_eq, Option.some.injEq]
  by_cases hzero : p.body.get ⟨5, by omega⟩ = 0
  · simp only [hzero, not_true_eq_false, if_false, false_or]
    by_cases hone : uint32At p.body 6 = 1
    · simp only [hone, not_true_eq_false, if_false]
      cases statements.get? (uint32At p.body 1) with
      | none => rfl
      | some kind => rfl
    · rw [if_pos hone, if_pos hone]
      rfl
  · rw [if_pos hzero, if_pos (Or.inl hzero)]
    rfl

theorem total_onCycle {α : Type} (m : EStateM SessionError Cycle α) :
    total (onCycle m) = Checked.onCycle (total m) := total_zoom _ _ m

theorem checked_prepared (modern : Bool) (kind : Statement) (first : Packet) :
    Checked.prepared modern kind first = total (prepared modern kind first) := by
  rw [Checked.prepared, prepared]
  by_cases hlen : first.body.length ≠ 12
  · rw [if_pos hlen, if_pos (Or.inl hlen)]
    rfl
  rw [not_not] at hlen
  simp only [index_bind (byteAt_code first), index_littleEndian 4 first.body 1 (by omega),
    index_littleEndian 2 first.body 7 (by omega), index_littleEndian 2 first.body 5 (by omega), total_ite,
    total_bind, total_throw, throw_bind, total_onCycle, checked_definitions, hlen, ne_eq, not_true_eq_false,
    false_or, if_false]
  rfl

theorem checked_acknowledged (e : Endpoint) (w : Surroundings) (snap : Snapshot) (command : Packet)
    (kind : Statement) (first : Packet) :
    Checked.acknowledged e w snap command kind first = total (acknowledged e w snap command kind first) := by
  rw [Checked.acknowledged, acknowledged, index_bind (checked_okStatus first.body)]
  cases okStatus first.body with
  | none => rfl
  | some status =>
    simp only [total_ite, total_bind, total_throw, throw_bind, total_onCycle]
    rfl

theorem checked_resultSet (modern : Bool) (first : Packet) :
    Checked.resultSet modern first = total (resultSet modern first) := by
  rw [Checked.resultSet, resultSet, checked_result, ← total_onCycle, ← total_captureError, total_bind]
  congr 1
  funext r
  cases r with
  | error e => rfl
  | ok r =>
    obtain ⟨status, ok, err⟩ := r
    simp only [total_ite, total_bind]
    cases err with
    | error e => rfl
    | ok u => rfl

theorem checked_respond (e : Endpoint) (w : Surroundings) (snap : Snapshot) (command : Packet)
    (kind : Statement) (first : Packet) :
    Checked.respond e w snap command kind first = total (respond e w snap command kind first) := by
  rw [Checked.respond, respond]
  simp only [index_bind (byteAt_code first), total_ite, total_bind, total_throw, total_onCycle, checked_prepared,
    checked_acknowledged, checked_resultSet]
  rfl

theorem checked_serveCommand (e : Endpoint) (w : Surroundings) (snap : Snapshot) (command : Packet)
    (kind : Statement) (hclose : command.code = 0x19 → command.body.length = 5) :
    Checked.serveCommand e w snap command kind = total (serveCommand e w snap command kind) := by
  rw [Checked.serveCommand, serveCommand, total_bind]
  congr 1
  funext _
  rw [total_ite]
  by_cases hcode : command.code = 0x19
  · have hlen := hclose hcode
    rw [if_pos hcode, if_pos hcode, index_littleEndian 4 command.body 1 (by omega)]
    rfl
  · rw [if_neg hcode, if_neg hcode]
    simp only [total_bind, total_onCycle, checked_respond]

theorem admission_close {statements : OrdMap ℕ Statement} {p : Packet} {kind : Statement}
    (h : admission statements p = .serve kind) (hcode : p.code = 0x19) : p.body.length = 5 := by
  rw [admission, hcode] at h
  by_contra hlen
  simp [hlen] at h

theorem checked_exchangeStep (e : Endpoint) (s : Session) (input : Packet × Surroundings) :
    Checked.exchangeStep e s input = some (exchangeStep e s input) := by
  rw [Checked.exchangeStep, exchangeStep]
  by_cases hclosed : s.closed = true
  · rw [if_pos hclosed, if_pos hclosed]
    rfl
  rw [if_neg hclosed, if_neg hclosed, checked_admission, Option.bind_eq_bind, Option.bind_some]
  cases hadmission : admission s.statements input.1 with
  | quit => rfl
  | refuse => rfl
  | serve kind =>
    simp only
    rw [checked_serveCommand e input.2 _ input.1 kind (admission_close hadmission), settled_total,
      Option.bind_eq_bind, Option.bind_some]
    rfl

/-- No read of a session is out of range, whatever its peers send. -/
theorem checked_serve (x : Setting) : Checked.serve x = some (serve x) := by
  rw [Checked.serve, serve, checked_authenticate, settled_total, Option.bind_eq_bind, Option.bind_some]
  cases authenticate x.secure x.upgrade x.start with
  | error e s => rfl
  | ok flags s =>
    have hrun := runChecked_eq (checked_exchangeStep (x.endpoint flags)) (x.session s) (x.commands s)
    simp only [Checked.exchange, hrun]
    rfl

end Faultline.MySQL
