import Faultline.PostgreSQLWire
import Faultline.Sink

/-! The start of a PostgreSQL session: `authenticate` passes the SCRAM-SHA-256 exchange
through, one frame of the upstream at a time, and reads an answer of the client where the
exchange asks for one. A list of frames ends where reading fails. -/
namespace Faultline.PostgreSQL

structure CancelKey where
  bytes : Bytes
  size : bytes.length = 8

/-- The variables of `authenticate`, the answers the client has still to send, and the
connections. `registered` is the key the client got, with that of the backend. -/
structure Auth where
  stage : ℕ
  registered : Option (CancelKey × Bytes)
  answers : List Frame
  client : Sink
  upstream : Sink

inductive AuthNext where
  | go (a : Auth)
  | stop (ok : Bool) (a : Auth)

def Auth.reject (a : Auth) : AuthNext :=
  .stop false { a with client := (a.client.write rejection.bytes).2 }

def Auth.forward (a : Auth) (f : Frame) : AuthNext :=
  if (a.client.write f.bytes).1 then .go { a with client := (a.client.write f.bytes).2 }
  else .stop false { a with client := (a.client.write f.bytes).2 }

/-- The switch over the authentication code: the next stage, if the code is expected. -/
def authStage (code : ℕ) (data : Bytes) (stage : ℕ) : Option ℕ :=
  if code = 10 then
    if stage ≠ 0 ∨ ¬ bytesOf "SCRAM-SHA-256\x00" <:+: data then none else some 1
  else if code = 11 then if stage ≠ 1 then none else some 2
  else if code = 12 then if stage ≠ 2 then none else some 3
  else if code = 0 then if stage ≠ 3 then none else some 4
  else none

def initialAnswer (body : Bytes) : Bool :=
  match cut 0 body with
  | (_, none) => false
  | (name, some data) =>
    name = bytesOf "SCRAM-SHA-256" && 4 ≤ data.length && beNat (data.take 4) = data.length - 4 &&
      (bytesOf "n,,").isPrefixOf (data.drop 4)

def authAnswer (a : Auth) (code : ℕ) : AuthNext :=
  match a.answers with
  | [] => .stop false a
  | response :: answers =>
    let a := { a with answers := answers }
    if response.kind ≠ 'p'.toUInt8 then a.reject
    else if code = 10 ∧ ¬ initialAnswer response.body then a.reject
    else if (a.upstream.write response.bytes).1 then
      .go { a with upstream := (a.upstream.write response.bytes).2 }
    else .stop false { a with upstream := (a.upstream.write response.bytes).2 }

def authRequest (a : Auth) (f : Frame) : AuthNext :=
  if f.body.length < 4 then a.reject
  else
    let code := beNat (f.body.take 4)
    match authStage code (f.body.drop 4) a.stage with
    | none => a.reject
    | some stage =>
      let a' := { a with stage := stage, client := (a.client.write f.bytes).2 }
      if !(a.client.write f.bytes).1 then .stop false a'
      else if code = 10 ∨ code = 11 then authAnswer a' code
      else .go a'

def authKey (key : Option CancelKey) (a : Auth) (f : Frame) : AuthNext :=
  if f.body.length ≠ 8 ∨ a.registered.isSome then .stop false a
  else
    match key with
    | none => .stop false a
    | some k =>
      { a with registered := some (k, f.body) }.forward
        ⟨f.kind, k.bytes, by rw [k.size]; decide⟩

def authStep (key : Option CancelKey) (a : Auth) (f : Frame) : AuthNext :=
  if f.kind = 'R'.toUInt8 then authRequest a f
  else if f.kind = 'K'.toUInt8 then authKey key a f
  else if f.kind = 'Z'.toUInt8 then
    if a.stage ≠ 4 ∨ f.body ≠ bytesOf "I" then .stop false a
    else .stop (a.client.write f.bytes).1 { a with client := (a.client.write f.bytes).2 }
  else if f.kind = 'E'.toUInt8 then
    .stop false { a with client := (a.client.write f.bytes).2 }
  else if f.kind = 'S'.toUInt8 ∨ f.kind = 'N'.toUInt8 then a.forward f
  else a.reject

def authLoop (key : Option CancelKey) : Auth → List Frame → Bool × Auth
  | a, [] => (false, a)
  | a, f :: back =>
    match authStep key a f with
    | .go a' => authLoop key a' back
    | .stop ok a' => (ok, a')

/-- Whether `authenticate` returns without an error, and what it leaves. -/
def authenticate (key : Option CancelKey) (front back : List Frame) (client upstream : Sink) :
    Bool × Auth :=
  authLoop key ⟨0, none, front, client, upstream⟩ back

/-- An initial response that selects SCRAM-SHA-256 without channel binding: the name, the
length of the SASL data, and data whose GS2 header is `n,,`. -/
def Selects (body : Bytes) : Prop :=
  ∃ data, bytesOf "n,," <+: data ∧ data.length < 2^32 ∧
    body = bytesOf "SCRAM-SHA-256" ++ 0 :: (putBE 4 data.length ++ data)

/-- An initial response that names SCRAM-SHA-256-PLUS, or whose GS2 header asks for channel
binding or says that the client supports it. -/
def ChannelBinding (body : Bytes) : Prop :=
  bytesOf "SCRAM-SHA-256-PLUS" ++ [0] <+: body ∨
    ∃ name size data, body = name ++ 0 :: (size ++ data) ∧ (0 : UInt8) ∉ name ∧ size.length = 4 ∧
      (bytesOf "p=" <+: data ∨ bytesOf "y," <+: data)

theorem initialAnswer_selects (body : Bytes) (h : initialAnswer body = true) : Selects body := by
  unfold initialAnswer at h
  split at h
  · cases h
  · rename_i name data hcut
    simp only [Bool.and_eq_true, decide_eq_true_eq, List.isPrefixOf_iff_prefix] at h
    obtain ⟨⟨⟨rfl, hlen⟩, hsize⟩, hgs2⟩ := h
    have htake : (data.take 4).length = 4 := List.length_take_of_le hlen
    have hput : putBE 4 (data.drop 4).length = data.take 4 := by
      have hbe := putBE_beNat (data.take 4)
      rwa [htake, hsize, ← List.length_drop] at hbe
    have hlt := leNat_lt (data.take 4).reverse
    rw [List.length_reverse, htake] at hlt
    refine ⟨data.drop 4, hgs2, ?_, ?_⟩
    · rw [List.length_drop, ← hsize]
      exact hlt
    · rw [hput, List.take_append_drop]
      exact cut_some 0 body _ data hcut

theorem Selects.not_channelBinding {body : Bytes} (h : Selects body) : ¬ ChannelBinding body := by
  obtain ⟨data, hgs2, _, rfl⟩ := h
  have hname : (0 : UInt8) ∉ bytesOf "SCRAM-SHA-256" := by decide +kernel
  rintro (⟨rest, hplus⟩ | ⟨name, size, data', hbody, hzero, hsize, hheader⟩)
  · have hcut := cut_append 0 _ (putBE 4 data.length ++ data) hname
    rw [← hplus, List.append_assoc, List.singleton_append,
      cut_append 0 _ rest (by decide +kernel)] at hcut
    have hnames : bytesOf "SCRAM-SHA-256-PLUS" = bytesOf "SCRAM-SHA-256" := congrArg Prod.fst hcut
    exact absurd hnames (by decide +kernel)
  · have hcut := cut_append 0 _ (putBE 4 data.length ++ data) hname
    rw [hbody, cut_append 0 name _ hzero] at hcut
    have hdata := Option.some.inj (congrArg Prod.snd hcut)
    obtain ⟨_, rfl⟩ := List.append_inj hdata (by rw [hsize, length_putBE])
    obtain ⟨rest, rfl⟩ := hgs2
    rcases hheader with ⟨r, hr⟩ | ⟨r, hr⟩
    · have hhead := congrArg List.head? hr
      simp [show bytesOf "p=" = [112, 61] by decide +kernel,
        show bytesOf "n,," = [110, 44, 44] by decide +kernel] at hhead
    · have hhead := congrArg List.head? hr
      simp [show bytesOf "y," = [121, 44] by decide +kernel,
        show bytesOf "n,," = [110, 44, 44] by decide +kernel] at hhead

def Wrote (w w' : Sink) (fs : List Frame) : Prop :=
  w'.written = w.written ++ fs.flatMap Frame.bytes

def Began (w w' : Sink) (fs : List Frame) : Prop :=
  ∃ c, c <+: fs.flatMap Frame.bytes ∧ w'.written = w.written ++ c

theorem wrote_refl (w : Sink) : Wrote w w [] := (List.append_nil _).symm

theorem Wrote.began {w w' : Sink} {fs : List Frame} (h : Wrote w w' fs) : Began w w' fs :=
  ⟨_, List.prefix_rfl, h⟩

theorem Wrote.trans {w w' w'' : Sink} {fs gs : List Frame} (h : Wrote w w' fs)
    (h' : Wrote w' w'' gs) : Wrote w w'' (fs ++ gs) := by
  unfold Wrote at h h' ⊢
  rw [h', h, List.append_assoc, ← List.flatMap_append]

theorem Wrote.trans_began {w w' w'' : Sink} {fs gs : List Frame} (h : Wrote w w' fs)
    (h' : Began w' w'' gs) : Began w w'' (fs ++ gs) := by
  obtain ⟨c, hc, hw⟩ := h'
  refine ⟨fs.flatMap Frame.bytes ++ c, ?_, ?_⟩
  · rw [List.flatMap_append]
    exact (List.prefix_append_right_inj _).mpr hc
  · rw [hw, h, List.append_assoc]

theorem began_write (w : Sink) (f : Frame) : Began w (w.write f.bytes).2 [f] := by
  obtain ⟨c, hc, hw, _⟩ := w.write_written f.bytes
  exact ⟨c, by simpa using hc, hw⟩

theorem wrote_write (w : Sink) (f : Frame) (h : (w.write f.bytes).1 = true) :
    Wrote w (w.write f.bytes).2 [f] := by
  obtain ⟨c, _, hw, hall⟩ := w.write_written f.bytes
  rw [Wrote, hw, hall h, List.flatMap_singleton]

def isReady (f : Frame) : Prop := f.kind = 'Z'.toUInt8

def scramCodes : List ℕ := [10, 11, 12, 0]

def authCode (f : Frame) : Option ℕ :=
  if f.body.length < 4 then none else some (beNat (f.body.take 4))

theorem authStage_some (code : ℕ) (data : Bytes) (stage stage' : ℕ)
    (h : authStage code data stage = some stage') :
    scramCodes[stage]? = some code ∧ stage' = stage + 1 ∧ (code = 10 ∨ code = 11 ↔ stage < 2) ∧
      (code = 10 ↔ stage = 0) := by
  unfold authStage at h
  split_ifs at h with h10 hs h11 hs h12 hs h0 hs
  · obtain rfl : stage = 0 := by simpa using (not_or.mp hs).1
    cases h
    exact ⟨by rw [h10]; rfl, rfl, by omega, by omega⟩
  · obtain rfl : stage = 1 := by simpa using hs
    cases h
    exact ⟨by rw [h11]; rfl, rfl, by omega, by omega⟩
  · obtain rfl : stage = 2 := by simpa using hs
    cases h
    exact ⟨by rw [h12]; rfl, rfl, by omega, by omega⟩
  · obtain rfl : stage = 3 := by simpa using hs
    cases h
    exact ⟨by rw [h0]; rfl, rfl, by omega, by omega⟩

def Passes (stage : ℕ) (p : Frame) : Prop :=
  stage < 2 ∧ p.kind = 'p'.toUInt8 ∧ (stage = 0 → Selects p.body)

structure Advanced (a : Auth) (f : Frame) (a' : Auth) : Prop where
  client : ∃ g, ¬ isReady g ∧ Wrote a.client a'.client [g]
  kind : f.kind ∈ bytesOf "RKSN"
  other : f.kind ≠ 'R'.toUInt8 →
    a'.stage = a.stage ∧ a'.answers = a.answers ∧ a'.upstream = a.upstream
  request : f.kind = 'R'.toUInt8 → authCode f = scramCodes[a.stage]? ∧ (authCode f).isSome ∧
    a'.stage = a.stage + 1 ∧
    ((∃ p, Passes a.stage p ∧ a.answers = p :: a'.answers ∧ Wrote a.upstream a'.upstream [p]) ∨
      2 ≤ a.stage ∧ a'.answers = a.answers ∧ a'.upstream = a.upstream)

/-- The frame at which `authenticate` may return without an error. -/
def Completes (a : Auth) (f : Frame) : Prop :=
  a.stage = 4 ∧ isReady f ∧ f.body = bytesOf "I"

structure Stopped (a : Auth) (f : Frame) (ok : Bool) (a' : Auth) : Prop where
  ok : ok = true → Completes a f ∧ a'.upstream = a.upstream
  client : ¬ Completes a f → ∃ gs, (∀ g ∈ gs, ¬ isReady g) ∧ Began a.client a'.client gs
  upstream : a'.upstream = a.upstream ∨
    ∃ p rest, Passes a.stage p ∧ a.answers = p :: rest ∧ Began a.upstream a'.upstream [p]

def Taken (a : Auth) (f : Frame) : AuthNext → Prop
  | .go a' => Advanced a f a'
  | .stop ok a' => Stopped a f ok a'

theorem rejection_not_ready : ¬ isReady rejection := by
  unfold isReady
  decide

theorem request_not_ready (f : Frame) (h : f.kind = 'R'.toUInt8) : ¬ isReady f := by
  unfold isReady
  rw [h]
  decide

theorem stopped_of_quiet (a a' : Auth) (f : Frame) (gs : List Frame) (hgs : ∀ g ∈ gs, ¬ isReady g)
    (hclient : Began a.client a'.client gs) (hupstream : a'.upstream = a.upstream) :
    Stopped a f false a' :=
  ⟨fun h => absurd h Bool.false_ne_true, fun _ => ⟨gs, hgs, hclient⟩, Or.inl hupstream⟩

theorem reject_taken (a : Auth) (f : Frame) : Taken a f a.reject :=
  stopped_of_quiet a _ f [rejection] (by simpa using rejection_not_ready) (began_write _ _) rfl

theorem forward_taken (a : Auth) (f g : Frame) (hf : f.kind ∈ bytesOf "RKSN")
    (hr : f.kind ≠ 'R'.toUInt8) (hg : ¬ isReady g) (registered : Option (CancelKey × Bytes)) :
    Taken a f ({ a with registered := registered }.forward g) := by
  unfold Auth.forward
  split_ifs with hw
  · exact ⟨⟨g, hg, wrote_write _ _ hw⟩, hf, fun _ => ⟨rfl, rfl, rfl⟩, fun h => absurd h hr⟩
  · exact stopped_of_quiet a _ f [g] (by simpa using hg) (began_write _ _) rfl

theorem authAnswer_taken (a b : Auth) (f : Frame) (code : ℕ) (hf : f.kind = 'R'.toUInt8)
    (hcode : authCode f = some code) (hstage : scramCodes[a.stage]? = some code)
    (hlt : a.stage < 2) (h10 : code = 10 ↔ a.stage = 0) (hb : b.stage = a.stage + 1)
    (hanswers : b.answers = a.answers) (hup : b.upstream = a.upstream)
    (hclient : Wrote a.client b.client [f]) : Taken a f (authAnswer b code) := by
  have hquiet := request_not_ready f hf
  unfold authAnswer
  split
  · exact stopped_of_quiet a _ f [f] (by simpa using hquiet) hclient.began hup
  · rename_i p rest hp
    have hreject : Taken a f ({ b with answers := rest } : Auth).reject := by
      refine stopped_of_quiet a _ f ([f] ++ [rejection]) ?_
        (hclient.trans_began (began_write _ _)) hup
      simp [hquiet, rejection_not_ready]
    simp only
    by_cases hkind : p.kind ≠ 'p'.toUInt8
    · rw [if_pos hkind]
      exact hreject
    rw [if_neg hkind]
    by_cases hinitial : code = 10 ∧ ¬ initialAnswer p.body = true
    · rw [if_pos hinitial]
      exact hreject
    rw [if_neg hinitial]
    have hpass : Passes a.stage p := by
      refine ⟨hlt, not_not.mp hkind, fun h0 => initialAnswer_selects _ ?_⟩
      by_contra hne
      exact hinitial ⟨h10.mpr h0, hne⟩
    split_ifs with hw
    · refine ⟨⟨f, hquiet, hclient⟩, by rw [hf]; decide +kernel, fun h => absurd hf h, fun _ => ?_⟩
      refine ⟨by rw [hcode, hstage], by simp [hcode], hb, Or.inl ⟨p, hpass, ?_, ?_⟩⟩
      · rw [← hanswers, hp]
      · rw [← hup]
        exact wrote_write _ _ hw
    · refine ⟨fun h => absurd h Bool.false_ne_true,
        fun _ => ⟨[f], by simpa using hquiet, hclient.began⟩, Or.inr ?_⟩
      exact ⟨p, rest, hpass, by rw [← hanswers, hp], hup ▸ began_write _ _⟩

theorem authRequest_taken (a : Auth) (f : Frame) (hf : f.kind = 'R'.toUInt8) :
    Taken a f (authRequest a f) := by
  have hquiet := request_not_ready f hf
  unfold authRequest
  by_cases hlen : f.body.length < 4
  · rw [if_pos hlen]
    exact reject_taken a f
  rw [if_neg hlen]
  simp only
  split
  · exact reject_taken a f
  · rename_i stage hstage
    obtain ⟨hnext, rfl, hlt, h10⟩ := authStage_some _ _ _ _ hstage
    have hcode : authCode f = some (beNat (f.body.take 4)) := if_neg hlen
    by_cases hw : (a.client.write f.bytes).1 = true
    · rw [if_neg (by simpa using hw)]
      by_cases hanswer : beNat (f.body.take 4) = 10 ∨ beNat (f.body.take 4) = 11
      · rw [if_pos hanswer]
        exact authAnswer_taken a _ f _ hf hcode hnext (hlt.mp hanswer) h10 rfl rfl rfl
          (wrote_write _ _ hw)
      rw [if_neg hanswer]
      refine ⟨⟨f, hquiet, wrote_write _ _ hw⟩, by rw [hf]; decide +kernel,
        fun h => absurd hf h, fun _ => ?_⟩
      exact ⟨by rw [hcode, hnext], by simp [hcode], rfl,
        Or.inr ⟨not_lt.mp (fun h => hanswer (hlt.mpr h)), rfl, rfl⟩⟩
    · rw [if_pos (by simpa using hw)]
      exact stopped_of_quiet a _ f [f] (by simpa using hquiet) (began_write _ _) rfl

theorem authStep_taken (key : Option CancelKey) (a : Auth) (f : Frame) :
    Taken a f (authStep key a f) := by
  have hsame : Stopped a f false a :=
    stopped_of_quiet a a f [] (by simp) (wrote_refl _).began rfl
  unfold authStep
  by_cases hR : f.kind = 'R'.toUInt8
  · rw [if_pos hR]
    exact authRequest_taken a f hR
  rw [if_neg hR]
  by_cases hK : f.kind = 'K'.toUInt8
  · rw [if_pos hK]
    unfold authKey
    split_ifs
    · exact hsame
    · cases key with
      | none => exact hsame
      | some k =>
        exact forward_taken a f _ (by rw [hK]; decide +kernel) hR (by unfold isReady; rw [hK]; decide) _
  rw [if_neg hK]
  by_cases hZ : f.kind = 'Z'.toUInt8
  · rw [if_pos hZ]
    split_ifs with hbad
    · exact hsame
    · have hdone : Completes a f := by
        rw [not_or, not_not, not_not] at hbad
        exact ⟨hbad.1, hZ, hbad.2⟩
      exact ⟨fun _ => ⟨hdone, rfl⟩, fun h => absurd hdone h, Or.inl rfl⟩
  rw [if_neg hZ]
  by_cases hE : f.kind = 'E'.toUInt8
  · rw [if_pos hE]
    exact stopped_of_quiet a _ f [f] (by simpa [isReady] using hZ) (began_write _ _) rfl
  rw [if_neg hE]
  by_cases hSN : f.kind = 'S'.toUInt8 ∨ f.kind = 'N'.toUInt8
  · rw [if_pos hSN]
    refine forward_taken a f f ?_ hR hZ a.registered
    rcases hSN with h | h <;> (rw [h]; decide +kernel)
  · rw [if_neg hSN]
    exact reject_taken a f

def authCodes (fs : List Frame) : List (Option ℕ) :=
  (fs.filter (fun f => f.kind = 'R'.toUInt8)).map authCode

/-- Where the exchange stands after some frames: the stage counts the codes that came, in
their order, and the first answers of the client have been forwarded. -/
structure Authenticating (front : List Frame) (client upstream : Sink) (before : List Frame)
    (a : Auth) : Prop where
  codes : authCodes before = (scramCodes.take a.stage).map some
  stage : a.stage ≤ 4
  kinds : ∀ f ∈ before, f.kind ∈ bytesOf "RKSN"
  answers : ∃ answered, front = answered ++ a.answers ∧ answered.length = min a.stage 2 ∧
    (∀ p ∈ answered, p.kind = 'p'.toUInt8) ∧ (∀ p ∈ answered.head?, Selects p.body) ∧
    Wrote upstream a.upstream answered
  quiet : ∃ sent, (∀ g ∈ sent, ¬ isReady g) ∧ Wrote client a.client sent

section
variable {front : List Frame} {client upstream : Sink} {before : List Frame} {a : Auth}

theorem Authenticating.start (front : List Frame) (client upstream : Sink) :
    Authenticating front client upstream [] ⟨0, none, front, client, upstream⟩ where
  codes := rfl
  stage := Nat.zero_le _
  kinds := by simp
  answers := ⟨[], rfl, rfl, by simp, by simp, wrote_refl _⟩
  quiet := ⟨[], by simp, wrote_refl _⟩

theorem Authenticating.answer (h : Authenticating front client upstream before a) (p : Frame)
    (rest : List Frame) (hpass : Passes a.stage p) (hanswers : a.answers = p :: rest) :
    ∃ answered, front = (answered ++ [p]) ++ rest ∧ (answered ++ [p]).length = min (a.stage + 1) 2 ∧
      (∀ q ∈ answered ++ [p], q.kind = 'p'.toUInt8) ∧
      (∀ q ∈ (answered ++ [p]).head?, Selects q.body) ∧ Wrote upstream a.upstream answered := by
  obtain ⟨answered, hfront, hlen, hkinds, hhead, hwrote⟩ := h.answers
  obtain ⟨hlt, hkind, hselects⟩ := hpass
  refine ⟨answered, by simp [hfront, hanswers], ?_, ?_, ?_, hwrote⟩
  · rw [List.length_append, hlen, List.length_singleton]
    omega
  · intro q hq
    rcases List.mem_append.mp hq with hq | hq
    · exact hkinds q hq
    · rwa [List.mem_singleton.mp hq]
  · intro q hq
    cases hans : answered with
    | nil =>
      -- the first answer: the exchange is at its first stage
      rw [hans] at hq hlen
      obtain rfl : p = q := by simpa using hq
      apply hselects
      simp only [List.length_nil] at hlen
      omega
    | cons r answered =>
      rw [hans] at hq hhead
      exact hhead q (by simpa using hq)

theorem Authenticating.next (h : Authenticating front client upstream before a) (f : Frame)
    (a' : Auth) (hadv : Advanced a f a') :
    Authenticating front client upstream (before ++ [f]) a' := by
  have hkinds : ∀ g ∈ before ++ [f], g.kind ∈ bytesOf "RKSN" := by
    intro g hg
    rcases List.mem_append.mp hg with hg | hg
    · exact h.kinds g hg
    · rw [List.mem_singleton.mp hg]
      exact hadv.kind
  have hquiet : ∃ sent, (∀ g ∈ sent, ¬ isReady g) ∧ Wrote client a'.client sent := by
    obtain ⟨sent, hsent, hwrote⟩ := h.quiet
    obtain ⟨g, hg, hwrote'⟩ := hadv.client
    refine ⟨sent ++ [g], ?_, hwrote.trans hwrote'⟩
    intro k hk
    rcases List.mem_append.mp hk with hk | hk
    · exact hsent k hk
    · rwa [List.mem_singleton.mp hk]
  by_cases hR : f.kind = 'R'.toUInt8
  · obtain ⟨hcode, hsome, hstage, hanswer⟩ := hadv.request hR
    have hlt : a.stage < 4 := by
      by_contra hge
      rw [hcode, List.getElem?_eq_none (by simpa [scramCodes] using hge)] at hsome
      cases hsome
    refine ⟨?_, by omega, hkinds, ?_, hquiet⟩
    · rw [authCodes, List.filter_append, List.map_append, hstage, List.take_add_one, List.map_append,
        ← authCodes, h.codes]
      obtain ⟨code, hc⟩ := Option.isSome_iff_exists.mp hsome
      rw [hc] at hcode
      simp [hR, hc, ← hcode]
    · rcases hanswer with ⟨p, hpass, hanswers, hwrote'⟩ | ⟨hge, hanswers, hup⟩
      · obtain ⟨answered, hfront, hlen, hkind, hhead, hwrote⟩ := h.answer p _ hpass hanswers
        exact ⟨answered ++ [p], hfront, by rw [hlen, hstage], hkind, hhead, hwrote.trans hwrote'⟩
      · obtain ⟨answered, hfront, hlen, hrest⟩ := h.answers
        rw [hanswers, hup]
        exact ⟨answered, hfront, by omega, hrest⟩
  · obtain ⟨hstage, hanswers, hup⟩ := hadv.other hR
    refine ⟨?_, by rw [hstage]; exact h.stage, hkinds, ?_, hquiet⟩
    · rw [hstage, ← h.codes]
      simp [authCodes, List.filter_append, hR]
    · rw [hstage, hanswers, hup]
      exact h.answers

end

/-- The exchange of a session that may go on: the upstream went through the codes and then
said that it is ready, and the client gave the two answers that were asked for. -/
structure Exchanged (front back : List Frame) (first second : Frame) : Prop where
  back : ∃ before ready rest, back = before ++ ready :: rest ∧
    authCodes before = [some 10, some 11, some 12, some 0] ∧
    (∀ f ∈ before, f.kind ∈ bytesOf "RKSN") ∧ isReady ready ∧ ready.body = bytesOf "I"
  front : [first, second] <+: front
  first : first.kind = 'p'.toUInt8 ∧ Selects first.body
  second : second.kind = 'p'.toUInt8

theorem Authenticating.exchanged {front : List Frame} {client upstream : Sink} {before : List Frame}
    {a : Auth} (h : Authenticating front client upstream before a) (f : Frame)
    (hf : Completes a f) (rest : List Frame) :
    ∃ first second, Exchanged front (before ++ f :: rest) first second ∧
      Wrote upstream a.upstream [first, second] := by
  obtain ⟨hstage, hready, hbody⟩ := hf
  obtain ⟨answered, hfront, hlen, hkinds, hhead, hwrote⟩ := h.answers
  rw [hstage] at hlen
  obtain ⟨first, second, rfl⟩ := List.length_eq_two.mp hlen
  have hcodes := h.codes
  rw [hstage] at hcodes
  refine ⟨first, second, ⟨⟨before, f, rest, rfl, hcodes, h.kinds, hready, hbody⟩, ?_, ?_, ?_⟩, hwrote⟩
  · exact ⟨a.answers, hfront.symm⟩
  · exact ⟨hkinds first (by simp), hhead first (by simp)⟩
  · exact hkinds second (by simp)

/-- What `authenticate` guarantees, by what it leaves. -/
structure GateLaw (front back : List Frame) (client upstream : Sink) (ok : Bool) (a : Auth) :
    Prop where
  accepted : ok = true → ∃ first second, Exchanged front back first second ∧
    Wrote upstream a.upstream [first, second]
  quiet : (¬ ∃ first second, Exchanged front back first second) →
    ∃ sent, (∀ g ∈ sent, ¬ isReady g) ∧ Began client a.client sent
  /-- Of the answers, at most two reach the upstream, and the first of them never asks for
  channel binding. -/
  forwarded : ∃ answers, answers <+: front ∧ answers.length ≤ 2 ∧
    (∀ p ∈ answers, p.kind = 'p'.toUInt8) ∧
    (∀ p ∈ answers.head?, Selects p.body ∧ ¬ ChannelBinding p.body) ∧
    Began upstream a.upstream answers

section
variable {front : List Frame} {client upstream : Sink} {before : List Frame} {a : Auth}

theorem Authenticating.forwarded (h : Authenticating front client upstream before a) :
    ∃ answers, answers <+: front ∧ answers.length ≤ 2 ∧ (∀ p ∈ answers, p.kind = 'p'.toUInt8) ∧
      (∀ p ∈ answers.head?, Selects p.body ∧ ¬ ChannelBinding p.body) ∧
      Began upstream a.upstream answers := by
  obtain ⟨answered, hfront, hlen, hkinds, hhead, hwrote⟩ := h.answers
  exact ⟨answered, ⟨_, hfront.symm⟩, by omega, hkinds,
    fun p hp => ⟨hhead p hp, (hhead p hp).not_channelBinding⟩, hwrote.began⟩

theorem Authenticating.stopped (h : Authenticating front client upstream before a) (f : Frame)
    (rest : List Frame) (ok : Bool) (a' : Auth) (hstop : Stopped a f ok a') :
    GateLaw front (before ++ f :: rest) client upstream ok a' := by
  constructor
  · intro hok
    obtain ⟨hdone, hup⟩ := hstop.ok hok
    rw [hup]
    exact h.exchanged f hdone rest
  · intro hnone
    obtain ⟨sent, hsent, hwrote⟩ := h.quiet
    obtain ⟨gs, hgs, hbegan⟩ := hstop.client (fun hdone => by
      obtain ⟨first, second, hex, _⟩ := h.exchanged f hdone rest
      exact hnone ⟨first, second, hex⟩)
    refine ⟨sent ++ gs, ?_, hwrote.trans_began hbegan⟩
    intro g hg
    rcases List.mem_append.mp hg with hg | hg
    · exact hsent g hg
    · exact hgs g hg
  · rcases hstop.upstream with hup | ⟨p, answers, hpass, hanswers, hbegan⟩
    · rw [hup]
      exact h.forwarded
    · obtain ⟨answered, hfront, hlen, hkinds, hhead, hwrote⟩ := h.answer p answers hpass hanswers
      exact ⟨answered ++ [p], ⟨_, hfront.symm⟩, by omega, hkinds,
        fun q hq => ⟨hhead q hq, (hhead q hq).not_channelBinding⟩, hwrote.trans_began hbegan⟩

end

theorem authLoop_law (key : Option CancelKey) (front : List Frame) (client upstream : Sink)
    (before back : List Frame) (a : Auth) (h : Authenticating front client upstream before a) :
    GateLaw front (before ++ back) client upstream (authLoop key a back).1
      (authLoop key a back).2 := by
  induction back generalizing before a with
  | nil =>
    obtain ⟨sent, hsent, hwrote⟩ := h.quiet
    exact ⟨fun hok => absurd hok Bool.false_ne_true, fun _ => ⟨sent, hsent, hwrote.began⟩,
      h.forwarded⟩
  | cons f back ih =>
    have htaken := authStep_taken key a f
    unfold authLoop
    cases hstep : authStep key a f with
    | go a' =>
      rw [hstep] at htaken
      have hlaw := ih (before ++ [f]) a' (h.next f a' htaken)
      rwa [List.append_assoc, List.singleton_append] at hlaw
    | stop ok a' =>
      rw [hstep] at htaken
      exact h.stopped f back ok a' htaken

theorem authentication_gate (key : Option CancelKey) (front back : List Frame)
    (client upstream : Sink) :
    GateLaw front back client upstream (authenticate key front back client upstream).1
      (authenticate key front back client upstream).2 :=
  authLoop_law key front client upstream [] back _ (.start front client upstream)

/-- An exchange with a notice and a backend key goes through. -/
example :
    let answer : Frame := ⟨'p'.toUInt8,
      bytesOf "SCRAM-SHA-256" ++ 0 :: (putBE 4 6 ++ bytesOf "n,,n=a"), by decide +kernel⟩
    let final : Frame := ⟨'p'.toUInt8, bytesOf "c=biws", by decide +kernel⟩
    let request (code : Fin 256) (data : String) (h : (bytesOf data).length < 100) : Frame :=
      ⟨'R'.toUInt8, putBE 4 code ++ bytesOf data, by simp [maxFrame]; omega⟩
    (authenticate (some ⟨List.replicate 8 7, rfl⟩) [answer, final]
      [request 10 "SCRAM-SHA-256\x00\x00" (by decide +kernel), request 11 "r=" (by decide +kernel),
        ⟨'N'.toUInt8, [], by decide⟩, request 12 "v=" (by decide +kernel),
        request 0 "" (by decide +kernel), ⟨'K'.toUInt8, List.replicate 8 1, by decide⟩,
        ⟨'Z'.toUInt8, bytesOf "I", by decide +kernel⟩] ⟨[], none⟩ ⟨[], none⟩).1 = true := by
  decide +kernel

end Faultline.PostgreSQL
