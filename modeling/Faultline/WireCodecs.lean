import Faultline.ByteStream
import Faultline.MySQLWire
import Faultline.PostgreSQLWire

/-! The two wire formats over byte streams: frames of PostgreSQL, whose length counts itself, and
packets of MySQL, whose length comes before a sequence number. -/
namespace Faultline

namespace PostgreSQL

def frameOf (kind : UInt8) (body : Bytes) : Option Frame :=
  if h : body.length + 4 ≤ maxFrame then some ⟨kind, body, h⟩ else none

/-- `readPacket` on a stream. -/
def receivePacket (limit : ℕ) (r : Reader) : Option Bytes × Reader :=
  andThen (readFull 4 r) (fun h r =>
    if beNat h < 4 ∨ limit < beNat h then (none, r) else readFull (beNat h - 4) r)

/-- `readFrame` on a stream. -/
def receiveFrame (r : Reader) : Option Frame × Reader :=
  andThen (readFull 1 r) (fun h r =>
    andThen (receivePacket maxFrame r) (fun b r => (frameOf (h.headD 0) b, r)))

/-- `writeFrame` on a stream. -/
def sendFrame (f : Frame) (w : Writer) : Bool × Writer := writeAll f.bytes w

theorem frameOf_eq (f : Frame) : frameOf f.kind f.body = some f := dif_pos f.bounded

theorem receivePacket_short (limit : ℕ) (r : Reader) (h : r.bytes.length < 4) :
    (receivePacket limit r).1 = none := andThen_none _ _ (readFull_short 4 r h)

theorem receivePacket_header (limit n : ℕ) (r : Reader) (rest : Bytes) (hn : n < 2^32)
    (hr : r.bytes = putBE 4 n ++ rest) :
    (n < 4 ∨ limit < n ∨ rest.length + 4 < n → (receivePacket limit r).1 = none) ∧
    (4 ≤ n ∧ n ≤ limit ∧ n ≤ rest.length + 4 → (receivePacket limit r).1 = some (rest.take (n-4)) ∧
      (receivePacket limit r).2.bytes = rest.drop (n-4)) := by
  obtain ⟨hhead, hleft⟩ := readFull_eq 4 r (by rw [hr, List.length_append, length_putBE]; omega)
  have htake : r.bytes.take 4 = putBE 4 n := by rw [hr, List.take_left' (length_putBE 4 n)]
  have hdrop : r.bytes.drop 4 = rest := by rw [hr, List.drop_left' (length_putBE 4 n)]
  rw [htake] at hhead
  rw [hdrop] at hleft
  rw [receivePacket, andThen_some _ _ _ hhead, beNat_putBE 4 n (by omega)]
  constructor
  · intro hbad
    by_cases hrange : n < 4 ∨ limit < n
    · rw [if_pos hrange]
    · rw [if_neg hrange]
      apply readFull_short
      rw [hleft]
      omega
  · intro hgood
    rw [if_neg (by omega)]
    have hbody := readFull_eq (n-4) (readFull 4 r).2 (by rw [hleft]; omega)
    rw [hleft] at hbody
    exact hbody

theorem receiveFrame_short (r : Reader) (h : r.bytes.length < 5) : (receiveFrame r).1 = none := by
  by_cases hempty : r.bytes.length < 1
  · exact andThen_none _ _ (readFull_short 1 r hempty)
  · obtain ⟨hhead, hleft⟩ := readFull_eq 1 r (by omega)
    rw [receiveFrame, andThen_some _ _ _ hhead]
    apply andThen_none
    apply receivePacket_short
    rw [hleft, List.length_drop]
    omega

theorem receiveFrame_header (kind : UInt8) (n : ℕ) (r : Reader) (rest : Bytes) (hn : n < 2^32)
    (hr : r.bytes = kind :: (putBE 4 n ++ rest)) :
    (n < 4 ∨ maxFrame < n ∨ rest.length + 4 < n → (receiveFrame r).1 = none) ∧
    (4 ≤ n ∧ n ≤ maxFrame ∧ n ≤ rest.length + 4 → (receiveFrame r).1 = frameOf kind (rest.take (n-4)) ∧
      (receiveFrame r).2.bytes = rest.drop (n-4)) := by
  obtain ⟨hhead, hleft⟩ := readFull_eq 1 r (by rw [hr]; simp)
  rw [hr] at hhead hleft
  obtain ⟨hbad, hgood⟩ := receivePacket_header maxFrame n (readFull 1 r).2 rest hn hleft
  rw [receiveFrame, andThen_some _ _ _ hhead]
  constructor
  · intro h
    exact andThen_none _ _ (hbad h)
  · intro h
    obtain ⟨hbody, hend⟩ := hgood h
    rw [andThen_some _ _ _ hbody]
    exact ⟨rfl, hend⟩

theorem frame_header (b : Bytes) (h : 5 ≤ b.length) :
    ∃ kind n rest, n < 2^32 ∧ b = kind :: (putBE 4 n ++ rest) := by
  obtain ⟨kind, t, rfl⟩ := List.exists_cons_of_ne_nil (List.ne_nil_of_length_pos (by omega : 0 < b.length))
  rw [List.length_cons] at h
  have hlen : (t.take 4).length = 4 := List.length_take_of_le (by omega)
  have hput := putBE_beNat (t.take 4)
  have hlt := leNat_lt (t.take 4).reverse
  rw [List.length_reverse, hlen] at hlt
  rw [hlen] at hput
  exact ⟨kind, beNat (t.take 4), t.drop 4, hlt, by rw [hput, List.take_append_drop]⟩

theorem receiveFrame_bytes (f : Frame) (r : Reader) (rest : Bytes) (hr : r.bytes = f.bytes ++ rest) :
    (receiveFrame r).1 = some f ∧ (receiveFrame r).2.bytes = rest := by
  have hbounded := f.bounded
  have hmax : maxFrame < 2^32 := by decide
  have hr' : r.bytes = f.kind :: (putBE 4 (f.body.length + 4) ++ (f.body ++ rest)) := by
    rw [hr, Frame.bytes, List.cons_append, List.append_assoc]
  have hgood := (receiveFrame_header f.kind (f.body.length + 4) r (f.body ++ rest) (by omega) hr').2 (by
    rw [List.length_append]
    omega)
  rw [Nat.add_sub_cancel, List.take_left, List.drop_left, frameOf_eq] at hgood
  exact hgood

theorem receiveFrame_inverse (r : Reader) (f : Frame) (h : (receiveFrame r).1 = some f) :
    r.bytes = f.bytes ++ (receiveFrame r).2.bytes := by
  by_cases hshort : r.bytes.length < 5
  · rw [receiveFrame_short r hshort] at h
    cases h
  obtain ⟨kind, n, rest, hn, hr⟩ := frame_header r.bytes (by omega)
  obtain ⟨hbad, hgood⟩ := receiveFrame_header kind n r rest hn hr
  by_cases hrange : n < 4 ∨ maxFrame < n ∨ rest.length + 4 < n
  · rw [hbad hrange] at h
    cases h
  obtain ⟨hframe, hend⟩ := hgood (by omega)
  have hlen : (rest.take (n-4)).length + 4 = n := by
    rw [List.length_take_of_le (by omega)]
    omega
  rw [h, frameOf, dif_pos (by omega), Option.some.injEq] at hframe
  have hkind : f.kind = kind := by rw [hframe]
  have hbody : f.body = rest.take (n-4) := by rw [hframe]
  rw [hend, hr, Frame.bytes, hkind, hbody, hlen, List.cons_append, List.append_assoc, List.take_append_drop]

theorem readPacket_bytes (limit : ℕ) (body rest : Bytes) (h : body.length + 4 ≤ limit) (hlimit : limit < 2^32) :
    readPacket limit (putBE 4 (body.length + 4) ++ (body ++ rest)) = some (body, rest) := by
  have hlen := length_putBE 4 (body.length + 4)
  have hlen' := @List.length_append _ (putBE 4 (body.length + 4)) (body ++ rest)
  have hbody := @List.length_append _ body rest
  rw [readPacket, if_neg (by omega), List.take_left' hlen, List.drop_left' hlen, beNat_putBE 4 _ (by omega)]
  simp only
  rw [if_neg (by omega), if_neg (by omega), Nat.add_sub_cancel, List.take_left, List.drop_left]

theorem readFrame_bytes (f : Frame) (rest : Bytes) : readFrame (f.bytes ++ rest) = some (f, rest) := by
  have hmax : maxFrame < 2^32 := by decide
  have hpacket := readPacket_bytes maxFrame f.body rest f.bounded hmax
  rw [Frame.bytes, List.cons_append, List.append_assoc, readFrame]
  split
  · rename_i hnone
    rw [hpacket] at hnone
    cases hnone
  · rename_i body rest' hsome
    rw [hpacket] at hsome
    cases hsome
    rfl

/-- The parts that the stream comes in do not matter: the frame and the rest are those of all its
bytes. -/
theorem receiveFrame_iff (r : Reader) (f : Frame) (rest : Bytes) :
    (receiveFrame r).1 = some f ∧ (receiveFrame r).2.bytes = rest ↔ readFrame r.bytes = some (f, rest) := by
  constructor
  · rintro ⟨hf, rfl⟩
    rw [receiveFrame_inverse r f hf]
    exact readFrame_bytes f _
  · intro h
    exact receiveFrame_bytes f r rest (readFrame_eq_some h)

def frameWire : Wire Frame where
  send := sendFrame
  receive := receiveFrame
  bytes := Frame.bytes
  nonempty f := by simp [Frame.bytes]
  sends f w hw := writeLoop_spec _ f.bytes w hw le_rfl
  receives := receiveFrame_bytes
  inverse := receiveFrame_inverse

end PostgreSQL

namespace MySQL

def packetOf (seq : UInt8) (body : Bytes) : Option Packet :=
  if h : body ≠ [] ∧ body.length ≤ maxPacket then some ⟨seq, body, h.1, h.2⟩ else none

/-- `readPacket` on a stream. -/
def receivePacket (r : Reader) : Option Packet × Reader :=
  andThen (readFull 4 r) (fun h r =>
    let n := leNat (h.take 3)
    if n = 0 ∨ maxPacket < n then (none, r)
    else andThen (readFull n r) (fun b r => (packetOf (h.getD 3 0) b, r)))

/-- `writePacket` on a stream. -/
def sendPacket (p : Packet) (w : Writer) : Bool × Writer :=
  if p.body.length = 0 ∨ maxPacket < p.body.length then (false, w) else writeAll p.bytes w

theorem packetOf_eq (p : Packet) : packetOf p.seq p.body = some p := dif_pos ⟨p.nonempty, p.bounded⟩

theorem receivePacket_short (r : Reader) (h : r.bytes.length < 4) : (receivePacket r).1 = none :=
  andThen_none _ _ (readFull_short 4 r h)

theorem receivePacket_header (seq : UInt8) (n : ℕ) (r : Reader) (rest : Bytes) (hn : n < 2^24)
    (hr : r.bytes = putLE 3 n ++ seq :: rest) :
    (n = 0 ∨ maxPacket < n ∨ rest.length < n → (receivePacket r).1 = none) ∧
    (n ≠ 0 ∧ n ≤ maxPacket ∧ n ≤ rest.length → (receivePacket r).1 = packetOf seq (rest.take n) ∧
      (receivePacket r).2.bytes = rest.drop n) := by
  have hr' : r.bytes = (putLE 3 n ++ [seq]) ++ rest := by rw [hr, List.append_assoc, List.singleton_append]
  have hlen : (putLE 3 n ++ [seq]).length = 4 := by rw [List.length_append, length_putLE, List.length_singleton]
  obtain ⟨hhead, hleft⟩ := readFull_eq 4 r (by rw [hr', List.length_append, hlen]; omega)
  rw [hr', List.take_left' hlen] at hhead
  rw [hr', List.drop_left' hlen] at hleft
  have hlength : leNat ((putLE 3 n ++ [seq]).take 3) = n := by
    rw [List.take_left' (length_putLE 3 n), leNat_putLE, Nat.mod_eq_of_lt (by omega)]
  have hseq : (putLE 3 n ++ [seq]).getD 3 0 = seq := rfl
  rw [receivePacket, andThen_some _ _ _ hhead, hlength, hseq]
  constructor
  · intro hbad
    by_cases hrange : n = 0 ∨ maxPacket < n
    · rw [if_pos hrange]
    · rw [if_neg hrange]
      apply andThen_none
      apply readFull_short
      rw [hleft]
      omega
  · intro hgood
    obtain ⟨hbody, hend⟩ := readFull_eq n (readFull 4 r).2 (by rw [hleft]; omega)
    rw [hleft] at hbody hend
    rw [if_neg (by omega), andThen_some _ _ _ hbody]
    exact ⟨rfl, hend⟩

theorem packet_header (b : Bytes) (h : 4 ≤ b.length) :
    ∃ seq n rest, n < 2^24 ∧ b = putLE 3 n ++ seq :: rest := by
  have hlen : (b.take 3).length = 3 := List.length_take_of_le (by omega)
  have hput := putLE_leNat (b.take 3)
  have hlt := leNat_lt (b.take 3)
  rw [hlen] at hput hlt
  have hdrop : b.drop 3 = b[3] :: b.drop 4 := List.drop_eq_getElem_cons (by omega)
  refine ⟨b[3], leNat (b.take 3), b.drop 4, hlt, ?_⟩
  rw [hput, ← hdrop, List.take_append_drop]

theorem receivePacket_bytes (p : Packet) (r : Reader) (rest : Bytes) (hr : r.bytes = p.bytes ++ rest) :
    (receivePacket r).1 = some p ∧ (receivePacket r).2.bytes = rest := by
  have hbounded := p.bounded
  have hpos := List.length_pos_of_ne_nil p.nonempty
  have hmax : maxPacket < 2^24 := by decide
  have hr' : r.bytes = putLE 3 p.body.length ++ p.seq :: (p.body ++ rest) := by
    rw [hr, Packet.bytes, List.append_assoc, List.cons_append]
  have hgood := (receivePacket_header p.seq p.body.length r (p.body ++ rest) (by omega) hr').2 (by
    rw [List.length_append]
    omega)
  rw [List.take_left, List.drop_left, packetOf_eq] at hgood
  exact hgood

theorem receivePacket_inverse (r : Reader) (p : Packet) (h : (receivePacket r).1 = some p) :
    r.bytes = p.bytes ++ (receivePacket r).2.bytes := by
  by_cases hshort : r.bytes.length < 4
  · rw [receivePacket_short r hshort] at h
    cases h
  obtain ⟨seq, n, rest, hn, hr⟩ := packet_header r.bytes (by omega)
  obtain ⟨hbad, hgood⟩ := receivePacket_header seq n r rest hn hr
  by_cases hrange : n = 0 ∨ maxPacket < n ∨ rest.length < n
  · rw [hbad hrange] at h
    cases h
  obtain ⟨hpacket, hend⟩ := hgood (by omega)
  have hlen : (rest.take n).length = n := List.length_take_of_le (by omega)
  have hne : rest.take n ≠ [] := List.ne_nil_of_length_pos (by omega)
  rw [h, packetOf, dif_pos ⟨hne, by omega⟩, Option.some.injEq] at hpacket
  have hseq : p.seq = seq := by rw [hpacket]
  have hbody : p.body = rest.take n := by rw [hpacket]
  rw [hend, hr, Packet.bytes, hseq, hbody, hlen, List.append_assoc, List.cons_append, List.take_append_drop]

theorem sendPacket_spec (p : Packet) (w : Writer) (hw : w.Accepting) : (sendPacket p w).1 = true ∧
    (sendPacket p w).2.written = w.written ++ p.bytes ∧ (sendPacket p w).2.respond = w.respond := by
  have hbounded := p.bounded
  have hpos := List.length_pos_of_ne_nil p.nonempty
  rw [sendPacket, if_neg (by omega)]
  exact writeLoop_spec _ p.bytes w hw le_rfl

def packetWire : Wire Packet where
  send := sendPacket
  receive := receivePacket
  bytes := Packet.bytes
  nonempty p := by simp [Packet.bytes]
  sends := sendPacket_spec
  receives := receivePacket_bytes
  inverse := receivePacket_inverse

end MySQL

/-- The two codecs over streams: lists of messages make the round trip, what is read is written again
as it was, and a length out of bounds or a stream that ends early is an error. -/
structure CodecLaw : Prop where
  frames : PostgreSQL.frameWire.RoundTrip
  frameShort : ∀ r : Reader, r.bytes.length < 5 → (PostgreSQL.receiveFrame r).1 = none
  frameLength : ∀ (r : Reader) kind n rest, n < 2^32 → r.bytes = kind :: (putBE 4 n ++ rest) →
    n < 4 ∨ 2^20 < n ∨ rest.length + 4 < n → (PostgreSQL.receiveFrame r).1 = none
  packets : MySQL.packetWire.RoundTrip
  packetShort : ∀ r : Reader, r.bytes.length < 4 → (MySQL.receivePacket r).1 = none
  packetLength : ∀ (r : Reader) seq n rest, n < 2^24 → r.bytes = putLE 3 n ++ seq :: rest →
    n = 0 ∨ 2^20 < n ∨ rest.length < n → (MySQL.receivePacket r).1 = none

theorem codec_law : CodecLaw := by
  refine ⟨PostgreSQL.frameWire.roundTrip, PostgreSQL.receiveFrame_short, ?_, MySQL.packetWire.roundTrip,
    MySQL.receivePacket_short, ?_⟩
  · intro r kind n rest hn hr hbad
    exact (PostgreSQL.receiveFrame_header kind n r rest hn hr).1 hbad
  · intro r seq n rest hn hr hbad
    exact (MySQL.receivePacket_header seq n r rest hn hr).1 hbad

end Faultline
