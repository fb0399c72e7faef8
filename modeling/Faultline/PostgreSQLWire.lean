import Faultline.ByteOrder

/-! Frames of the PostgreSQL protocol and how they are read from and written to a byte
stream. -/
namespace Faultline.PostgreSQL

def maxFrame : ℕ := 2^20

/-- A frame that `readFrame` returns. -/
structure Frame where
  kind : UInt8
  body : Bytes
  bounded : body.length + 4 ≤ maxFrame
  deriving DecidableEq

def Frame.bytes (f : Frame) : Bytes := f.kind :: (putBE 4 (f.body.length + 4) ++ f.body)

/-- The frame that `reject` sends before the session ends. -/
def rejection : Frame where
  kind := 'E'.toUInt8
  body := bytesOf
    "SFATAL\x00C0A000\x00MFaultline: unsupported protocol, authentication or operation\x00\x00"
  bounded := by decide +kernel

/-- `readPacket`: the body of a packet and the rest of the stream. -/
def readPacket (limit : ℕ) (b : Bytes) : Option (Bytes × Bytes) :=
  if b.length < 4 then none
  else
    let n := beNat (b.take 4)
    if n < 4 ∨ limit < n then none
    else if (b.drop 4).length < n-4 then none
    else some ((b.drop 4).take (n-4), (b.drop 4).drop (n-4))

theorem readPacket_eq_some {limit : ℕ} {b body rest : Bytes}
    (h : readPacket limit b = some (body, rest)) :
    body.length + 4 ≤ limit ∧ b = putBE 4 (body.length + 4) ++ (body ++ rest) := by
  unfold readPacket at h
  simp only at h
  split_ifs at h with h1 h2 h3
  simp only [Option.some.injEq, Prod.mk.injEq] at h
  obtain ⟨rfl, rfl⟩ := h
  have hlen : ((b.drop 4).take (beNat (b.take 4) - 4)).length + 4 = beNat (b.take 4) := by
    rw [List.length_take_of_le (by omega)]
    omega
  have hhead : (b.take 4).length = 4 := List.length_take_of_le (by omega)
  have hput : putBE 4 (beNat (b.take 4)) = b.take 4 := by
    have := putBE_beNat (b.take 4)
    rwa [hhead] at this
  refine ⟨by omega, ?_⟩
  rw [hlen, hput, List.take_append_drop, List.take_append_drop]

def readFrame : Bytes → Option (Frame × Bytes)
  | [] => none
  | kind :: b =>
    match h : readPacket maxFrame b with
    | none => none
    | some (body, rest) => some (⟨kind, body, (readPacket_eq_some h).1⟩, rest)

theorem readFrame_eq_some {b rest : Bytes} {f : Frame} (h : readFrame b = some (f, rest)) :
    b = f.bytes ++ rest := by
  cases b with
  | nil => cases h
  | cons kind b =>
    simp only [readFrame] at h
    split at h
    · cases h
    · rename_i body rest' hp
      cases h
      simp only [Frame.bytes, List.cons_append, List.append_assoc]
      rw [← (readPacket_eq_some hp).2]

theorem readFrame_length {b rest : Bytes} {f : Frame} (h : readFrame b = some (f, rest)) :
    rest.length < b.length := by
  rw [readFrame_eq_some h]
  simp [Frame.bytes]
  omega

/-- The frames that a pump reads from a stream, up to its end or to a malformed one. -/
def frames (b : Bytes) : List Frame :=
  match h : readFrame b with
  | none => []
  | some (f, rest) =>
    have := readFrame_length h
    f :: frames rest
termination_by b.length

theorem frames_bytes (b : Bytes) : (frames b).flatMap Frame.bytes <+: b := by
  fun_induction frames b with
  | case1 b _ => exact List.nil_prefix
  | case2 b f rest h _ ih =>
    rw [List.flatMap_cons]
    conv_rhs => rw [readFrame_eq_some h]
    exact List.prefix_append_right_inj _ |>.mpr ih

end Faultline.PostgreSQL
