import Faultline.MySQLResponse

/-! The start of a MySQL session: the greeting of the server with its capabilities cut down, and the
authentication that is passed through between client and server, in plain text or over TLS. -/
namespace Faultline.MySQL

def capSSL : BitVec 32 := 1 <<< 11

def capProtocol41 : BitVec 32 := 1 <<< 9

def capPluginAuth : BitVec 32 := 1 <<< 19

/-- Capabilities that change framing, response boundaries or authentication. -/
def forbiddenCaps : BitVec 32 :=
  1 <<< 5 ||| 1 <<< 7 ||| 1 <<< 16 ||| 1 <<< 17 ||| 1 <<< 18 ||| 1 <<< 25 ||| 1 <<< 26 ||| 1 <<< 27 |||
    1 <<< 28 ||| 1 <<< 29

def pluginName : Bytes := bytesOf "caching_sha2_password" ++ [0]

/-- The capabilities in a greeting: two bytes at `lo`, and two more after three others. -/
def capsAt (b : Bytes) (lo : ℕ) : BitVec 32 :=
  BitVec.ofNat 32 (uint16At b lo) ||| BitVec.ofNat 32 (uint16At b (lo+5)) <<< 16

/-- `PutUint16` in a slice. -/
def putUint16 (b : Bytes) (i n : ℕ) : Bytes := b.take i ++ (putLE 2 n ++ b.drop (i+2))

/-- Where the capabilities of a greeting are: after the version, which a zero ends, a thread ID, eight
bytes of a nonce and a filler. -/
def capsOffset (b : Bytes) : Option ℕ := (b.tail.findIdx? (· = 0)).map (fun e => 1 + e + 1 + 4 + 8 + 1)

def offerCaps (flags : BitVec 32) (secure : Bool) : BitVec 32 :=
  if secure then flags &&& ~~~forbiddenCaps else flags &&& ~~~forbiddenCaps &&& ~~~capSSL

/-- `greeting`: the offered capabilities, and the greeting with them. -/
def greeting (b : Bytes) (secure : Bool) : Option (BitVec 32 × Bytes) :=
  if b.head? ≠ some 10 then none
  else match capsOffset b with
    | none => none
    | some lo =>
      if b.length < lo + 18 then none
      else
        let flags := capsAt b lo
        if flags &&& capProtocol41 = 0 ∨ flags &&& capPluginAuth = 0 ∨ ¬ pluginName <:+ b then none
        else if secure ∧ flags &&& capSSL = 0 then none
        else
          let flags := offerCaps flags secure
          some (flags, putUint16 (putUint16 b lo (flags.toNat % 2^16)) (lo+5) (flags.toNat / 2^16))

theorem getElem?_putUint16 (b : Bytes) (i n j : ℕ) (h : i + 2 ≤ b.length) (hj : j ≠ i ∧ j ≠ i + 1) :
    (putUint16 b i n)[j]? = b[j]? := by
  unfold putUint16
  by_cases hlt : j < i
  · rw [List.getElem?_append_left (by rw [List.length_take]; omega), List.getElem?_take_of_lt hlt]
  · rw [List.getElem?_append_right (by rw [List.length_take]; omega), List.length_take,
      List.getElem?_append_right (by rw [length_putLE]; omega), length_putLE, List.getElem?_drop]
    congr 1
    omega

theorem length_putUint16 (b : Bytes) (i n : ℕ) (h : i + 2 ≤ b.length) : (putUint16 b i n).length = b.length := by
  simp only [putUint16, List.length_append, List.length_take, length_putLE, List.length_drop]
  omega

theorem uint16At_putUint16 (b : Bytes) (i n : ℕ) (h : i + 2 ≤ b.length) (hn : n < 2^16) :
    uint16At (putUint16 b i n) i = n := by
  have hlen : (b.take i).length = i := by
    rw [List.length_take]
    omega
  have hword := uint16At_append (b.take i) (b.drop (i+2)) n (by omega)
  rwa [hlen] at hword

theorem uint16At_congr (b b' : Bytes) (i : ℕ) (h0 : b[i]? = b'[i]?) (h1 : b[i+1]? = b'[i+1]?) :
    uint16At b i = uint16At b' i := by
  have hslice : (b.drop i).take 2 = (b'.drop i).take 2 := by
    apply List.ext_getElem?
    intro k
    by_cases hk : k < 2
    · rw [List.getElem?_take_of_lt hk, List.getElem?_take_of_lt hk, List.getElem?_drop, List.getElem?_drop]
      interval_cases k
      · exact h0
      · exact h1
    · rw [List.getElem?_take_eq_none (by omega), List.getElem?_take_eq_none (by omega)]
  rw [uint16At, uint16At, hslice]

theorem halves_or (n : BitVec 32) :
    BitVec.ofNat 32 (n.toNat % 2^16) ||| BitVec.ofNat 32 (n.toNat / 2^16) <<< 16 = n := by
  have hn := n.isLt
  have hhigh : n.toNat / 2^16 < 2^16 := by omega
  apply BitVec.eq_of_toNat_eq
  have hor := Nat.shiftLeft_add_eq_or_of_lt (i := 16) (Nat.mod_lt n.toNat (by decide : 0 < 2^16)) (n.toNat / 2^16)
  rw [BitVec.toNat_or, BitVec.toNat_shiftLeft, BitVec.toNat_ofNat, BitVec.toNat_ofNat,
    Nat.mod_eq_of_lt (a := n.toNat % 2^16) (by omega), Nat.mod_eq_of_lt (a := n.toNat / 2^16) (by omega),
    Nat.mod_eq_of_lt (a := (n.toNat / 2^16) <<< 16) (by rw [Nat.shiftLeft_eq]; omega), Nat.or_comm, ← hor,
    Nat.shiftLeft_eq]
  omega

def forbiddenBits : List ℕ := [5, 7, 16, 17, 18, 25, 26, 27, 28, 29]

theorem getLsbD_of_le {x : BitVec 32} {i : ℕ} (h : 32 ≤ i) : x.getLsbD i = false :=
  BitVec.getLsbD_of_ge x i h

theorem forbiddenCaps_bit (i : ℕ) : forbiddenCaps.getLsbD i = Decidable.decide (i ∈ forbiddenBits) := by
  by_cases hi : i < 32
  · have hall : ∀ j < 32, forbiddenCaps.getLsbD j = Decidable.decide (j ∈ forbiddenBits) := by decide
    exact hall i hi
  · rw [getLsbD_of_le (by omega), eq_comm, decide_eq_false_iff_not]
    intro hmem
    simp only [forbiddenBits, List.mem_cons, List.not_mem_nil, or_false] at hmem
    omega

theorem capSSL_bit (i : ℕ) : capSSL.getLsbD i = Decidable.decide (i = 11) := by
  by_cases hi : i < 32
  · have hall : ∀ j < 32, capSSL.getLsbD j = Decidable.decide (j = 11) := by decide
    exact hall i hi
  · rw [getLsbD_of_le (by omega), eq_comm, decide_eq_false_iff_not]
    omega

theorem and_twoPow_eq_zero (x : BitVec 32) (k : ℕ) (hk : k < 32) :
    x &&& BitVec.twoPow 32 k = 0 ↔ x.getLsbD k = false := by
  rw [BitVec.and_twoPow]
  by_cases hx : x.getLsbD k = true
  · rw [if_pos hx, hx]
    refine iff_of_false ?_ (by simp)
    intro hzero
    have hbit := congrArg (fun y => y.getLsbD k) hzero
    simp [hk] at hbit
  · rw [if_neg hx]
    simpa using hx

theorem and_not_eq_zero (x y : BitVec 32) :
    x &&& ~~~y = 0 ↔ ∀ i, x.getLsbD i = true → y.getLsbD i = true := by
  constructor
  · intro h i hx
    have hi : i < 32 := by
      by_contra hge
      rw [getLsbD_of_le (by omega)] at hx
      cases hx
    have hbit := congrArg (fun z => z.getLsbD i) h
    simp only [BitVec.getLsbD_and, BitVec.getLsbD_not, hx, hi, decide_true, Bool.true_and] at hbit
    simpa using hbit
  · intro h
    apply BitVec.eq_of_getLsbD_eq
    intro i hi
    simp only [BitVec.getLsbD_and, BitVec.getLsbD_not, hi, decide_true, Bool.true_and]
    cases hx : x.getLsbD i with
    | false => simp
    | true => simp [h i hx]

theorem and_forbidden_eq_zero (x : BitVec 32) :
    x &&& forbiddenCaps = 0 ↔ ∀ i ∈ forbiddenBits, x.getLsbD i = false := by
  constructor
  · intro h i hmem
    have hbit := congrArg (fun z => z.getLsbD i) h
    simp only [BitVec.getLsbD_and, forbiddenCaps_bit, hmem, decide_true, Bool.and_true] at hbit
    simpa using hbit
  · intro h
    apply BitVec.eq_of_getLsbD_eq
    intro i _
    rw [BitVec.getLsbD_and, forbiddenCaps_bit]
    by_cases hmem : i ∈ forbiddenBits
    · simp [h i hmem]
    · simp [hmem]

theorem offerCaps_bit (x : BitVec 32) (secure : Bool) (i : ℕ) : (offerCaps x secure).getLsbD i = true ↔
    x.getLsbD i = true ∧ i ∉ forbiddenBits ∧ (secure = false → i ≠ 11) := by
  by_cases hi : i < 32
  · unfold offerCaps
    cases secure with
    | true =>
      simp only [if_true, BitVec.getLsbD_and, BitVec.getLsbD_not, forbiddenCaps_bit, hi]
      simp
    | false =>
      simp only [Bool.false_eq_true, if_false, BitVec.getLsbD_and, BitVec.getLsbD_not, forbiddenCaps_bit,
        capSSL_bit, hi]
      simp [and_assoc]
  · rw [getLsbD_of_le (by omega), getLsbD_of_le (by omega)]
    simp

/-- What `greeting` promises about a greeting it accepts, with its capabilities at `lo`. -/
structure Greets (b : Bytes) (secure : Bool) (flags : BitVec 32) (b' : Bytes) (lo : ℕ) : Prop where
  layout : ∃ version rest, b = 10 :: (version ++ 0 :: rest) ∧ 0 ∉ version ∧ lo = version.length + 15
  room : lo + 18 ≤ b.length
  protocol41 : (capsAt b lo).getLsbD 9 = true
  pluginAuth : (capsAt b lo).getLsbD 19 = true
  ssl : secure = true → (capsAt b lo).getLsbD 11 = true
  ending : pluginName <:+ b
  /-- Only the four bytes of the capabilities change, and they encode what is offered. -/
  length : b'.length = b.length
  kept : ∀ i, i ≠ lo → i ≠ lo+1 → i ≠ lo+5 → i ≠ lo+6 → b'[i]? = b[i]?
  encoded : capsAt b' lo = flags
  offered : ∀ i, flags.getLsbD i = true ↔
    (capsAt b lo).getLsbD i = true ∧ i ∉ forbiddenBits ∧ (secure = false → i ≠ 11)

theorem capsOffset_some {b : Bytes} {lo : ℕ} (hhead : b.head? = some 10) (h : capsOffset b = some lo) :
    ∃ version rest, b = 10 :: (version ++ 0 :: rest) ∧ 0 ∉ version ∧ lo = version.length + 15 := by
  obtain ⟨e, he, rfl⟩ := Option.map_eq_some_iff.mp h
  obtain ⟨hlt, hzero, hbefore⟩ := List.findIdx?_eq_some_iff_getElem.mp he
  cases b with
  | nil => cases hhead
  | cons x s =>
    obtain rfl : x = 10 := Option.some.inj hhead
    simp only [List.tail_cons] at hlt hzero hbefore
    refine ⟨s.take e, s.drop (e+1), ?_, ?_, ?_⟩
    · have hz : s[e] = 0 := of_decide_eq_true hzero
      rw [← hz, List.getElem_cons_drop, List.take_append_drop]
    · intro hmem
      obtain ⟨j, hj, hval⟩ := List.mem_iff_getElem.mp hmem
      rw [List.length_take] at hj
      rw [List.getElem_take] at hval
      exact hbefore j (by omega) (decide_eq_true hval)
    · rw [List.length_take]
      omega

theorem greeting_spec {b b' : Bytes} {secure : Bool} {flags : BitVec 32}
    (h : greeting b secure = some (flags, b')) : ∃ lo, capsOffset b = some lo ∧ Greets b secure flags b' lo := by
  unfold greeting at h
  split_ifs at h with hhead
  rw [not_not] at hhead
  cases hoffset : capsOffset b with
  | none =>
    rw [hoffset] at h
    cases h
  | some lo =>
    rw [hoffset] at h
    simp only at h
    split_ifs at h with hroom hcaps hsecure
    obtain ⟨rfl, rfl⟩ := Prod.mk.inj (Option.some.inj h)
    push Not at hroom hcaps hsecure
    obtain ⟨h41, hplugin, hending⟩ := hcaps
    have hbit (k : ℕ) (hk : k < 32) (hne : capsAt b lo &&& BitVec.twoPow 32 k ≠ 0) :
        (capsAt b lo).getLsbD k = true := by
      rw [Ne, and_twoPow_eq_zero _ k hk, Bool.not_eq_false] at hne
      exact hne
    set flags := offerCaps (capsAt b lo) secure with hflags
    have hlow : lo + 2 ≤ b.length := by omega
    have hhigh : lo + 5 + 2 ≤ (putUint16 b lo (flags.toNat % 2^16)).length := by
      rw [length_putUint16 b lo _ hlow]
      omega
    have hn := flags.isLt
    refine ⟨lo, rfl, capsOffset_some hhead hoffset, hroom, hbit 9 (by decide) h41, hbit 19 (by decide) hplugin,
      fun hs => hbit 11 (by decide) (hsecure hs), hending, ?_, ?_, ?_, ?_⟩
    · rw [length_putUint16 _ _ _ hhigh, length_putUint16 _ _ _ hlow]
    · intro i h0 h1 h5 h6
      rw [getElem?_putUint16 _ _ _ _ hhigh ⟨h5, h6⟩, getElem?_putUint16 _ _ _ _ hlow ⟨h0, h1⟩]
    · have hlo : uint16At (putUint16 (putUint16 b lo (flags.toNat % 2^16)) (lo+5) (flags.toNat / 2^16)) lo =
          flags.toNat % 2^16 := by
        rw [uint16At_congr _ (putUint16 b lo (flags.toNat % 2^16)) lo
          (getElem?_putUint16 _ _ _ _ hhigh ⟨by omega, by omega⟩)
          (getElem?_putUint16 _ _ _ _ hhigh ⟨by omega, by omega⟩)]
        exact uint16At_putUint16 b lo _ hlow (by omega)
      have hhi : uint16At (putUint16 (putUint16 b lo (flags.toNat % 2^16)) (lo+5) (flags.toNat / 2^16)) (lo+5) =
          flags.toNat / 2^16 := uint16At_putUint16 _ _ _ hhigh (by omega)
      rw [capsAt, hlo, hhi, halves_or]
    · exact fun i => offerCaps_bit (capsAt b lo) secure i

theorem greeting_length {b b' : Bytes} {secure : Bool} {flags : BitVec 32}
    (h : greeting b secure = some (flags, b')) : b'.length = b.length := by
  obtain ⟨lo, -, hgreets⟩ := greeting_spec h
  exact hgreets.length

/-- The default plugin that a greeting names, by the layout of the protocol: after the capabilities, the
length of the nonce and ten reserved bytes comes the rest of the nonce, at least 13 bytes, and then the
name up to a zero. -/
def defaultPlugin (b : Bytes) : Option Bytes :=
  (capsOffset b).bind (fun lo =>
    let name := b.drop (lo + 18 + max 13 ((b.getD (lo+7) 0).toNat - 8))
    (name.findIdx? (· = 0)).map name.take)

inductive Side where
  | client
  | upstream
  deriving DecidableEq

/-- A connection: whether it is under TLS, the packets that arrive on it until reading fails, and its
writing side. -/
structure Line where
  secure : Bool
  incoming : List Packet
  sink : Sink
  deriving DecidableEq

structure Transfer where
  side : Side
  secure : Bool
  packet : Packet
  deriving DecidableEq

/-- The connections of a session that authenticates, and what was written on them. -/
structure Handshake where
  lines : Side → Line
  log : List Transfer

def Handshake.start (client upstream : List Packet × Sink) : Handshake where
  lines
    | .client => ⟨false, client.1, client.2⟩
    | .upstream => ⟨false, upstream.1, upstream.2⟩
  log := []

/-- What arrives on the connections and can be written there after the TLS handshakes, if they succeed. -/
structure Upgrade where
  upstream : Option (List Packet × Sink)
  client : Option (List Packet × Sink)

def Handshake.put (s : Handshake) (side : Side) (line : Line) : Handshake :=
  { s with lines := Function.update s.lines side line }

def receive (side : Side) (seq : UInt8) : EStateM SessionError Handshake Packet := do
  match ((← get).lines side).incoming with
  | [] => throw .protocol
  | p :: incoming =>
    modify (fun s => s.put side { s.lines side with incoming := incoming })
    if p.seq ≠ seq then
      throw .protocol
    return p

def send (side : Side) (p : Packet) : EStateM SessionError Handshake Unit := do
  let line := (← get).lines side
  modify (fun s => s.put side { line with sink := (line.sink.write p.bytes).2 })
  unless (line.sink.write p.bytes).1 do
    throw .write
  modify (fun s => { s with log := s.log ++ [⟨side, line.secure, p⟩] })

/-- `HandshakeContext` on one connection. -/
def handshake (side : Side) (peer : Option (List Packet × Sink)) : EStateM SessionError Handshake Unit := do
  match peer with
  | none => throw .cancelled
  | some (incoming, sink) => modify (fun s => s.put side ⟨true, incoming, sink⟩)

/-- What the loop of `authenticate` does with a packet of the upstream. -/
inductive AuthReply where
  | finish
  | fail
  | refuse
  | pass
  | ask
  deriving DecidableEq

def authReply (p : Packet) : AuthReply :=
  if p.code = 0 then if okStatus p.body = none then .refuse else .finish
  else if p.code = 0xff then .fail
  else if p.code = 0xfe then if pluginName.isPrefixOf p.body.tail then .ask else .refuse
  else if p.code = 1 then
    if p.body.length = 2 then
      if p.body[1]? = some 3 then .pass else if p.body[1]? = some 4 then .ask else .refuse
    else if (bytesOf "-----BEGIN PUBLIC KEY-----").isPrefixOf p.body.tail then .ask
    else .refuse
  else .refuse

/-- The loop of `authenticate`, with the rounds that are left. -/
def authRounds : ℕ → UInt8 → EStateM SessionError Handshake Unit
  | 0, _ => throw .protocol
  | n+1, seq => do
    let p ← receive .upstream seq
    match authReply p with
    | .finish => send .client p
    | .fail =>
      let _ ← captureError (send .client p)
      throw .protocol
    | .refuse => throw .protocol
    | .pass =>
      send .client p
      authRounds n (seq+1)
    | .ask =>
      send .client p
      let answer ← receive .client (seq+1)
      send .upstream answer
      authRounds n (seq+1+1)

def responseCaps (b : Bytes) : BitVec 32 := BitVec.ofNat 32 (uint32At b 0)

def Packet.rewrite (p : Packet) (b : Bytes) (h : b.length = p.body.length) : Packet where
  seq := p.seq
  body := b
  nonempty := by
    rintro rfl
    exact p.nonempty (List.eq_nil_of_length_eq_zero h.symm)
  bounded := h ▸ p.bounded

def capsRefused (flags offered : BitVec 32) : Bool :=
  flags &&& forbiddenCaps ≠ 0 || flags &&& capProtocol41 = 0 || flags &&& capPluginAuth = 0 ||
    flags &&& ~~~offered ≠ 0

/-- The part of `authenticate` after the greeting, to which the client answers with its capabilities. -/
def handshakeResponse (secure : Bool) (upgrade : Upgrade) (offered : BitVec 32) :
    EStateM SessionError Handshake (BitVec 32) := do
  let response ← receive .client 1
  if response.body.length < 32 then
    throw .protocol
  let flags := responseCaps response.body
  if capsRefused flags offered then
    throw .protocol
  if secure then
    if flags &&& capSSL = 0 ∨ response.body.length ≠ 32 then
      throw .protocol
    send .upstream response
    handshake .upstream upgrade.upstream
    handshake .client upgrade.client
    let response ← receive .client 2
    if response.body.length ≤ 32 ∨ responseCaps response.body ≠ flags then
      throw .protocol
    send .upstream response
    authRounds 12 3
    return flags
  else
    if flags &&& capSSL ≠ 0 then
      throw .protocol
    send .upstream response
    authRounds 12 2
    return flags

def offer (secure : Bool) (hello : Packet) : Option (BitVec 32 × Packet) :=
  match h : greeting hello.body secure with
  | none => none
  | some (offered, b) => some (offered, hello.rewrite b (greeting_length h))

/-- `secure` says that the endpoint has a TLS configuration. -/
def authenticate (secure : Bool) (upgrade : Upgrade) : EStateM SessionError Handshake (BitVec 32) := do
  let hello ← receive .upstream 0
  match offer secure hello with
  | none => throw .protocol
  | some (offered, greeted) =>
    send .client greeted
    handshakeResponse secure upgrade offered

theorem receive_returned {side : Side} {seq : UInt8} {s s' : Handshake} {p : Packet}
    (h : receive side seq s = .ok p s') : ∃ rest, (s.lines side).incoming = p :: rest ∧ p.seq = seq ∧
      s' = s.put side { s.lines side with incoming := rest } := by
  unfold receive at h
  rw [bind_ok (get_apply s)] at h
  cases hincoming : (s.lines side).incoming with
  | nil =>
    rw [hincoming] at h
    cases h
  | cons q rest =>
    rw [hincoming] at h
    simp only [bind_ok (modify_apply _ _)] at h
    by_cases hseq : q.seq = seq
    · rw [if_neg (not_not.mpr hseq)] at h
      cases h
      exact ⟨rest, rfl, hseq, rfl⟩
    · rw [if_pos hseq] at h
      cases h

theorem send_returned {side : Side} {p : Packet} {s s' : Handshake} (h : send side p s = .ok () s') :
    ∃ sink, s' = { s.put side { s.lines side with sink := sink } with
      log := s.log ++ [⟨side, (s.lines side).secure, p⟩] } := by
  unfold send at h
  rw [bind_ok (get_apply s), bind_ok (modify_apply _ _)] at h
  by_cases hok : ((s.lines side).sink.write p.bytes).1 = true
  · rw [if_pos hok] at h
    cases h
    exact ⟨_, rfl⟩
  · rw [if_neg hok] at h
    cases h

theorem handshake_returned {side : Side} {peer : Option (List Packet × Sink)} {s s' : Handshake}
    (h : handshake side peer s = .ok () s') : ∃ incoming sink, peer = some (incoming, sink) ∧
      s' = s.put side ⟨true, incoming, sink⟩ := by
  unfold handshake at h
  split at h
  · cases h
  · cases h
    exact ⟨_, _, rfl, rfl⟩

def Side.other : Side → Side
  | .client => .upstream
  | .upstream => .client

def written (side : Side) (ts : List Transfer) : List Packet := (ts.filter (·.side = side)).map (·.packet)

theorem written_append (side : Side) (ts us : List Transfer) :
    written side (ts ++ us) = written side ts ++ written side us := by
  rw [written, written, written, List.filter_append, List.map_append]

/-- Packets that were passed on as they came, with consecutive sequence numbers from `seq`: what was
written on a side is what arrived on the other one. A switch of the plugin names the one plugin. -/
structure Relays (s s' : Handshake) (seq : UInt8) (ts : List Transfer) : Prop where
  log : s'.log = s.log ++ ts
  incoming : ∀ side, (s.lines side).incoming = written side.other ts ++ (s'.lines side).incoming
  secure : ∀ side, (s'.lines side).secure = (s.lines side).secure
  sealed : ∀ t ∈ ts, t.secure = (s.lines t.side).secure
  numbered : ∀ i t, ts[i]? = some t → t.packet.seq = seq + UInt8.ofNat i
  switches : ∀ t ∈ ts, t.side = .client → t.packet.code = 0xfe → pluginName <+: t.packet.body.tail

theorem Relays.trans {s s' s'' : Handshake} {seq : UInt8} {ts us : List Transfer} (h : Relays s s' seq ts)
    (h' : Relays s' s'' (seq + UInt8.ofNat ts.length) us) : Relays s s'' seq (ts ++ us) := by
  refine ⟨?_, ?_, ?_, ?_, ?_, ?_⟩
  · rw [h'.log, h.log, List.append_assoc]
  · intro side
    rw [h.incoming side, h'.incoming side, written_append, List.append_assoc]
  · intro side
    rw [h'.secure side, h.secure side]
  · intro t ht
    rcases List.mem_append.mp ht with hmem | hmem
    · exact h.sealed t hmem
    · rw [h'.sealed t hmem, h.secure]
  · intro i t ht
    by_cases hi : i < ts.length
    · rw [List.getElem?_append_left hi] at ht
      exact h.numbered i t ht
    · rw [List.getElem?_append_right (by omega)] at ht
      rw [h'.numbered _ t ht, add_assoc, ← UInt8.ofNat_add]
      congr 2
      omega
  · intro t ht hside hcode
    rcases List.mem_append.mp ht with hmem | hmem
    · exact h.switches t hmem hside hcode
    · exact h'.switches t hmem hside hcode

theorem relays_one {side : Side} {seq : UInt8} {s s' s'' : Handshake} {p : Packet}
    (hread : receive side seq s = .ok p s') (hsend : send side.other p s' = .ok () s'')
    (hswitch : side = .upstream → p.code = 0xfe → pluginName <+: p.body.tail) :
    Relays s s'' seq [⟨side.other, (s.lines side.other).secure, p⟩] := by
  obtain ⟨rest, hincoming, hseq, rfl⟩ := receive_returned hread
  obtain ⟨sink, rfl⟩ := send_returned hsend
  refine ⟨?_, ?_, ?_, ?_, ?_, ?_⟩
  · cases side <;> rfl
  · intro x
    cases side <;> cases x <;> simp_all [written, Side.other, Handshake.put]
  · intro x
    cases side <;> cases x <;> rfl
  · intro t ht
    rw [List.mem_singleton.mp ht]
  · intro i t ht
    cases i with
    | zero =>
      cases ht
      simpa using hseq
    | succ i => cases ht
  · intro t ht hside hcode
    obtain rfl := List.mem_singleton.mp ht
    refine hswitch ?_ hcode
    cases side with
    | client => cases hside
    | upstream => rfl

theorem authReply_switch {p : Packet} (h : authReply p ≠ .refuse) (hcode : p.code = 0xfe) :
    pluginName <+: p.body.tail := by
  unfold authReply at h
  rw [hcode, if_neg (by decide), if_neg (by decide), if_pos rfl] at h
  by_contra hprefix
  exact h (if_neg (fun hh => hprefix (List.isPrefixOf_iff_prefix.mp hh)))

theorem authReply_finish {p : Packet} (h : authReply p = .finish) : ∃ status, IsOK 0 p.body status := by
  unfold authReply at h
  split_ifs at h with hcode hok
  obtain ⟨status, hstatus⟩ := Option.ne_none_iff_exists'.mp hok
  have hhead : p.body.head? = some 0 := by
    rw [List.head?_eq_some_head p.nonempty]
    exact congrArg some hcode
  exact ⟨status, (okStatus_eq_some_iff_of_head p.body 0 status hhead (.inl rfl)).mp hstatus⟩

def Finished (ts : List Transfer) : Prop :=
  ∃ t, ts.getLast? = some t ∧ t.side = .client ∧ ∃ status, IsOK 0 t.packet.body status

theorem Finished.append {us : List Transfer} (h : Finished us) (ts : List Transfer) : Finished (ts ++ us) := by
  obtain ⟨t, hlast, ht⟩ := h
  exact ⟨t, by rw [List.getLast?_append, hlast, Option.some_or], ht⟩

theorem authRounds_relays (n : ℕ) (seq : UInt8) (s s' : Handshake) (h : authRounds n seq s = .ok () s') :
    ∃ ts, Relays s s' seq ts ∧ Finished ts := by
  induction n generalizing seq s with
  | zero => cases h
  | succ n ih =>
    rw [authRounds] at h
    obtain ⟨p, s₁, hread, h⟩ := bind_eq_returned.mp h
    have hpass (hne : authReply p ≠ .refuse) (s₂ : Handshake) (hsend : send .client p s₁ = .ok () s₂) :
        Relays s s₂ seq [⟨.client, (s.lines .client).secure, p⟩] :=
      relays_one hread hsend (fun _ => authReply_switch hne)
    cases hreply : authReply p with
    | finish =>
      rw [hreply] at h
      obtain ⟨status, hok⟩ := authReply_finish hreply
      exact ⟨_, hpass (by rw [hreply]; simp) s' h, _, rfl, rfl, status, hok⟩
    | fail =>
      rw [hreply] at h
      obtain ⟨_, _, _, h⟩ := bind_eq_returned.mp h
      cases h
    | refuse =>
      rw [hreply] at h
      cases h
    | pass =>
      rw [hreply] at h
      obtain ⟨_, s₂, hsend, h⟩ := bind_eq_returned.mp h
      obtain ⟨ts, hrest, hfinished⟩ := ih (seq+1) s₂ h
      exact ⟨_, (hpass (by rw [hreply]; simp) s₂ hsend).trans hrest, hfinished.append _⟩
    | ask =>
      rw [hreply] at h
      obtain ⟨_, s₂, hsend, h⟩ := bind_eq_returned.mp h
      obtain ⟨answer, s₃, hanswer, h⟩ := bind_eq_returned.mp h
      obtain ⟨_, s₄, hback, h⟩ := bind_eq_returned.mp h
      obtain ⟨ts, hrest, hfinished⟩ := ih (seq+1+1) s₄ h
      have htwo := (hpass (by rw [hreply]; simp) s₂ hsend).trans
        (relays_one hanswer hback (fun hside => nomatch hside))
      have hseq : seq + UInt8.ofNat 2 = seq + 1 + 1 := by
        rw [add_assoc]
        rfl
      exact ⟨_, htwo.trans (hseq ▸ hrest), hfinished.append _⟩

structure CapsAgreed (secure : Bool) (offered flags : BitVec 32) : Prop where
  offered : ∀ i, flags.getLsbD i = true → offered.getLsbD i = true
  forbidden : ∀ i ∈ forbiddenBits, flags.getLsbD i = false
  protocol41 : flags.getLsbD 9 = true
  pluginAuth : flags.getLsbD 19 = true
  ssl : flags.getLsbD 11 = secure

structure PlainRelay (s s' : Handshake) (flags : BitVec 32) (ts : List Transfer) : Prop where
  response : ∃ p ts', ts = ⟨.upstream, false, p⟩ :: ts' ∧ responseCaps p.body = flags
  plain : ∀ t ∈ ts, t.secure = false
  upstream : (s.lines .upstream).incoming = written .client ts ++ (s'.lines .upstream).incoming
  client : (s.lines .client).incoming = written .upstream ts ++ (s'.lines .client).incoming

/-- The packets after the greeting with TLS: only the first one, of 32 bytes, is in plain text. -/
structure SecureRelay (upgrade : Upgrade) (s s' : Handshake) (flags : BitVec 32) (ts : List Transfer) : Prop where
  response : ∃ request response ts' rest us cs usink csink,
    ts = ⟨.upstream, false, request⟩ :: ⟨.upstream, true, response⟩ :: ts' ∧
    request.body.length = 32 ∧ responseCaps request.body = flags ∧ responseCaps response.body = flags ∧
    (s.lines .client).incoming = request :: rest ∧
    upgrade.upstream = some (us, usink) ∧ upgrade.client = some (cs, csink) ∧
    us = written .client ts' ++ (s'.lines .upstream).incoming ∧
    cs = response :: (written .upstream ts' ++ (s'.lines .client).incoming)
  sealed : ∀ t ∈ ts.tail, t.secure = true

structure Authenticated (secure : Bool) (upgrade : Upgrade) (s s' : Handshake) (offered flags : BitVec 32)
    (ts : List Transfer) : Prop where
  caps : CapsAgreed secure offered flags
  log : s'.log = s.log ++ ts
  relay : if secure then SecureRelay upgrade s s' flags ts else PlainRelay s s' flags ts
  numbered : ∀ i t, ts[i]? = some t → t.packet.seq = 1 + UInt8.ofNat i
  switches : ∀ t ∈ ts, t.side = .client → t.packet.code = 0xfe → pluginName <+: t.packet.body.tail
  finished : Finished ts

theorem capsRefused_eq_false {secure : Bool} {flags offered : BitVec 32} (h : capsRefused flags offered = false)
    (hssl : flags.getLsbD 11 = secure) : CapsAgreed secure offered flags := by
  unfold capsRefused at h
  simp only [Bool.or_eq_false_iff, decide_eq_false_iff_not, not_not] at h
  obtain ⟨⟨⟨hforbidden, h41⟩, hplugin⟩, hoffered⟩ := h
  refine ⟨(and_not_eq_zero flags offered).mp hoffered, (and_forbidden_eq_zero flags).mp hforbidden, ?_, ?_, hssl⟩
  · have hbit := (and_twoPow_eq_zero flags 9 (by decide)).not.mp h41
    simpa using hbit
  · have hbit := (and_twoPow_eq_zero flags 19 (by decide)).not.mp hplugin
    simpa using hbit

theorem plain_response {s s₁ s₂ s' : Handshake} {p : Packet} (hplain : ∀ side, (s.lines side).secure = false)
    (hread : receive .client 1 s = .ok p s₁) (hsend : send .upstream p s₁ = .ok () s₂)
    (hrounds : authRounds 12 2 s₂ = .ok () s') :
    ∃ ts, Relays s s' 1 ts ∧ Finished ts ∧ PlainRelay s s' (responseCaps p.body) ts := by
  have hfirst := relays_one hread hsend (fun hside => nomatch hside)
  obtain ⟨ts, hrest, hfinished⟩ := authRounds_relays 12 2 s₂ s' hrounds
  have hall := hfirst.trans hrest
  refine ⟨_, hall, hfinished.append _, ⟨p, ts, ?_, rfl⟩, ?_, hall.incoming .upstream, hall.incoming .client⟩
  · rw [hplain]
    rfl
  · intro t ht
    rw [hall.sealed t ht, hplain]

theorem secure_response {upgrade : Upgrade} {s s₁ s₂ s₃ s₄ s₅ s₆ s' : Handshake} {request response : Packet}
    (hplain : ∀ side, (s.lines side).secure = false)
    (hread : receive .client 1 s = .ok request s₁) (hsend : send .upstream request s₁ = .ok () s₂)
    (hup : handshake .upstream upgrade.upstream s₂ = .ok () s₃)
    (hcl : handshake .client upgrade.client s₃ = .ok () s₄)
    (hread' : receive .client 2 s₄ = .ok response s₅) (hsend' : send .upstream response s₅ = .ok () s₆)
    (hrounds : authRounds 12 3 s₆ = .ok () s') (hlen : request.body.length = 32)
    (hcaps : responseCaps response.body = responseCaps request.body) :
    ∃ ts, s'.log = s.log ++ ts ∧ (∀ i t, ts[i]? = some t → t.packet.seq = 1 + UInt8.ofNat i) ∧
      (∀ t ∈ ts, t.side = .client → t.packet.code = 0xfe → pluginName <+: t.packet.body.tail) ∧
      Finished ts ∧ SecureRelay upgrade s s' (responseCaps request.body) ts := by
  obtain ⟨rest, hincoming, -, -⟩ := receive_returned hread
  have hfirst : Relays s s₂ 1 [⟨.upstream, false, request⟩] := by
    have hone := relays_one hread hsend (fun hside => nomatch hside)
    rwa [hplain] at hone
  obtain ⟨us, usink, hus, rfl⟩ := handshake_returned hup
  obtain ⟨cs, csink, hcs, rfl⟩ := handshake_returned hcl
  have hsecond : Relays _ s₆ 2 [⟨.upstream, true, response⟩] :=
    relays_one hread' hsend' (fun hside => nomatch hside)
  obtain ⟨ts, hrest, hfinished⟩ := authRounds_relays 12 3 s₆ s' hrounds
  have hall := hsecond.trans hrest
  refine ⟨⟨.upstream, false, request⟩ :: ⟨.upstream, true, response⟩ :: ts, ?_, ?_, ?_, hfinished.append [_, _],
    ⟨request, response, ts, rest, us, cs, usink, csink, rfl, hlen, rfl, hcaps, hincoming, hus, hcs,
      hall.incoming .upstream, hall.incoming .client⟩, ?_⟩
  · -- a TLS handshake writes no packet
    rw [hall.log, List.append_cons, ← hfirst.log]
    rfl
  · intro i t ht
    cases i with
    | zero => exact hfirst.numbered 0 t ht
    | succ i =>
      have hseq := hall.numbered i t ht
      rw [hseq, Nat.succ_eq_add_one, Nat.add_comm i 1, UInt8.ofNat_add, ← add_assoc]
      rfl
  · intro t ht
    rcases List.mem_cons.mp ht with rfl | hmem
    · intro hside
      cases hside
    · exact hall.switches t hmem
  · intro t ht
    rw [hall.sealed t ht]
    cases t.side <;> rfl

theorem handshakeResponse_authenticated {secure : Bool} {upgrade : Upgrade} {offered flags : BitVec 32}
    {s s' : Handshake} (hplain : ∀ side, (s.lines side).secure = false)
    (h : handshakeResponse secure upgrade offered s = .ok flags s') :
    ∃ ts, Authenticated secure upgrade s s' offered flags ts := by
  unfold handshakeResponse at h
  obtain ⟨p, s₁, hread, h⟩ := bind_eq_returned.mp h
  by_cases hshort : p.body.length < 32
  · rw [if_pos hshort] at h
    cases h
  rw [if_neg hshort] at h
  by_cases hrefused : capsRefused (responseCaps p.body) offered = true
  · rw [if_pos hrefused] at h
    cases h
  rw [if_neg hrefused] at h
  have hagreed {x : Bool} (hssl : (responseCaps p.body).getLsbD 11 = x) :
      CapsAgreed x offered (responseCaps p.body) := capsRefused_eq_false (by simpa using hrefused) hssl
  have hmask := and_twoPow_eq_zero (responseCaps p.body) 11 (by decide)
  cases secure with
  | true =>
    rw [if_pos rfl] at h
    by_cases hform : responseCaps p.body &&& capSSL = 0 ∨ p.body.length ≠ 32
    · rw [if_pos hform] at h
      cases h
    rw [if_neg hform] at h
    obtain ⟨hssl, hlen⟩ := not_or.mp hform
    obtain ⟨_, s₂, hsend, h⟩ := bind_eq_returned.mp h
    obtain ⟨_, s₃, hup, h⟩ := bind_eq_returned.mp h
    obtain ⟨_, s₄, hcl, h⟩ := bind_eq_returned.mp h
    obtain ⟨q, s₅, hread', h⟩ := bind_eq_returned.mp h
    by_cases hsame : q.body.length ≤ 32 ∨ responseCaps q.body ≠ responseCaps p.body
    · rw [if_pos hsame] at h
      cases h
    rw [if_neg hsame] at h
    obtain ⟨_, s₆, hsend', h⟩ := bind_eq_returned.mp h
    obtain ⟨_, s₇, hrounds, h⟩ := bind_eq_returned.mp h
    cases h
    obtain ⟨ts, hlog, hnumbered, hswitches, hfinished, hrelay⟩ := secure_response hplain hread hsend hup hcl
      hread' hsend' hrounds (not_not.mp hlen) (not_not.mp (not_or.mp hsame).2)
    exact ⟨ts, hagreed (Bool.not_eq_false _ ▸ hmask.not.mp hssl), hlog, hrelay, hnumbered, hswitches, hfinished⟩
  | false =>
    rw [if_neg Bool.false_ne_true] at h
    by_cases hssl : responseCaps p.body &&& capSSL = 0
    · rw [if_neg (not_not.mpr hssl)] at h
      obtain ⟨_, s₂, hsend, h⟩ := bind_eq_returned.mp h
      obtain ⟨_, s₃, hrounds, h⟩ := bind_eq_returned.mp h
      cases h
      obtain ⟨ts, hall, hfinished, hrelay⟩ := plain_response hplain hread hsend hrounds
      exact ⟨ts, hagreed (hmask.mp hssl), hall.log, hrelay, hall.numbered, hall.switches, hfinished⟩
    · rw [if_pos hssl] at h
      cases h

/-- The connections after the greeting `hello`, which the client got as `greeted`. -/
structure Greeted (secure : Bool) (client upstream : List Packet × Sink) (hello greeted : Packet)
    (offered : BitVec 32) (s : Handshake) : Prop where
  incoming : upstream.1 = hello :: (s.lines .upstream).incoming ∧ (s.lines .client).incoming = client.1
  seq : hello.seq = 0 ∧ greeted.seq = 0
  greeting : greeting hello.body secure = some (offered, greeted.body)
  log : s.log = [⟨.client, false, greeted⟩]

theorem offer_some {secure : Bool} {hello greeted : Packet} {offered : BitVec 32}
    (h : offer secure hello = some (offered, greeted)) :
    greeting hello.body secure = some (offered, greeted.body) ∧ greeted.seq = hello.seq := by
  unfold offer at h
  split at h
  · cases h
  · rename_i flags b hgreeting
    cases h
    exact ⟨hgreeting, rfl⟩

theorem authenticate_returned {secure : Bool} {upgrade : Upgrade} {client upstream : List Packet × Sink}
    {flags : BitVec 32} {s' : Handshake}
    (h : authenticate secure upgrade (Handshake.start client upstream) = .ok flags s') :
    ∃ hello greeted offered s ts, Greeted secure client upstream hello greeted offered s ∧
      Authenticated secure upgrade s s' offered flags ts := by
  unfold authenticate at h
  obtain ⟨hello, s₁, hread, h⟩ := bind_eq_returned.mp h
  obtain ⟨rest, hincoming, hseq, rfl⟩ := receive_returned hread
  cases hoffer : offer secure hello with
  | none =>
    rw [hoffer] at h
    cases h
  | some x =>
    rw [hoffer] at h
    obtain ⟨offered, greeted⟩ := x
    obtain ⟨hgreeting, hsame⟩ := offer_some hoffer
    obtain ⟨_, s₂, hsend, h⟩ := bind_eq_returned.mp h
    obtain ⟨sink, rfl⟩ := send_returned hsend
    obtain ⟨ts, hauth⟩ := handshakeResponse_authenticated (by rintro (_ | _) <;> rfl) h
    refine ⟨hello, greeted, offered, _, ts, ⟨⟨?_, ?_⟩, ⟨hseq, hsame.trans hseq⟩, hgreeting, ?_⟩, hauth⟩
    · exact hincoming
    · rfl
    · rfl

/-- The capabilities of a session are negotiated as the adapter announces: a greeting is passed on only
if its default plugin is the supported one, with its capabilities cut down and nothing else changed, and
an authentication that succeeds has agreed on capabilities among those. -/
structure Negotiates (secure : Bool) (upgrade : Upgrade) (b : Bytes) (client upstream : List Packet × Sink) :
    Prop where
  greets : ∀ flags b', greeting b secure = some (flags, b') →
    (∃ lo, Greets b secure flags b' lo) ∧ defaultPlugin b = some (bytesOf "caching_sha2_password")
  agrees : ∀ flags s', authenticate secure upgrade (Handshake.start client upstream) = .ok flags s' →
    ∃ hello greeted offered s ts, Greeted secure client upstream hello greeted offered s ∧
      Authenticated secure upgrade s s' offered flags ts

/-- A greeting that passes every check of `greeting`, where of the default plugin only the end of the
packet is looked at. -/
structure Offers (b : Bytes) (secure : Bool) (lo : ℕ) : Prop where
  layout : b.head? = some 10 ∧ capsOffset b = some lo ∧ lo + 18 ≤ b.length
  caps : (capsAt b lo).getLsbD 9 = true ∧ (capsAt b lo).getLsbD 19 = true ∧
    (secure = true → (capsAt b lo).getLsbD 11 = true)
  ending : pluginName <:+ b

theorem greeting_accepts {b : Bytes} {secure : Bool} {lo : ℕ} (h : Offers b secure lo) :
    ∃ flags b', greeting b secure = some (flags, b') := by
  obtain ⟨⟨hhead, hoffset, hroom⟩, ⟨h41, hplugin, hssl⟩, hending⟩ := h
  have hbit (k : ℕ) (hk : k < 32) (hset : (capsAt b lo).getLsbD k = true) :
      capsAt b lo &&& BitVec.twoPow 32 k ≠ 0 := by
    rw [Ne, and_twoPow_eq_zero _ k hk, hset]
    exact Bool.true_eq_false.mp
  unfold greeting
  rw [if_neg (not_not.mpr hhead), hoffset]
  have hcaps : ¬ (capsAt b lo &&& capProtocol41 = 0 ∨ capsAt b lo &&& capPluginAuth = 0 ∨ ¬ pluginName <:+ b) := by
    rintro (hzero | hzero | hnot)
    · exact hbit 9 (by decide) h41 hzero
    · exact hbit 19 (by decide) hplugin hzero
    · exact hnot hending
  have hsecure : ¬ (secure = true ∧ capsAt b lo &&& capSSL = 0) := by
    rintro ⟨hs, hzero⟩
    exact hbit 11 (by decide) (hssl hs) hzero
  exact ⟨_, _, (if_neg (by omega)).trans ((if_neg hcaps).trans (if_neg hsecure))⟩

/-- A greeting whose default plugin is `xcaching_sha2_password`. -/
def strangeGreeting : Bytes :=
  [10, 0] ++ List.replicate 13 1 ++ [0, 2, 33, 2, 0, 8, 0, 21] ++ List.replicate 10 0 ++ List.replicate 13 1 ++
    120 :: pluginName

end Faultline.MySQL
