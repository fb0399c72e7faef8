import Faultline.Text

/-! Fixed-width numbers in byte strings, in both byte orders. -/
namespace Faultline

def leNat : Bytes → ℕ
  | [] => 0
  | b :: s => b.toNat + 256*leNat s

/-- The `k` low bytes of a number, lowest first. -/
def putLE : ℕ → ℕ → Bytes
  | 0, _ => []
  | k+1, n => UInt8.ofNat n :: putLE k (n/256)

def beNat (s : Bytes) : ℕ := leNat s.reverse

def putBE (k n : ℕ) : Bytes := (putLE k n).reverse

@[simp] theorem length_putLE (k n : ℕ) : (putLE k n).length = k := by
  induction k generalizing n with
  | zero => rfl
  | succ k ih => simp [putLE, ih]

@[simp] theorem length_putBE (k n : ℕ) : (putBE k n).length = k := by
  simp [putBE]

theorem leNat_lt (s : Bytes) : leNat s < 256^s.length := by
  induction s with
  | nil => simp [leNat]
  | cons b s ih =>
    have hb := b.toNat_lt
    simp only [leNat, List.length_cons, pow_succ]
    omega

theorem leNat_putLE (k n : ℕ) : leNat (putLE k n) = n % 256^k := by
  induction k generalizing n with
  | zero => simp [putLE, leNat, Nat.mod_one]
  | succ k ih =>
    have hbyte : (UInt8.ofNat n).toNat = n % 256 := UInt8.toNat_ofNat'
    rw [putLE, leNat, ih, hbyte, pow_succ, Nat.mul_comm (256^k), Nat.mod_mul]

theorem putLE_leNat (s : Bytes) : putLE s.length (leNat s) = s := by
  induction s with
  | nil => rfl
  | cons b s ih =>
    have hb := b.toNat_lt
    have hlow : UInt8.ofNat (b.toNat + 256*leNat s) = b := by
      apply UInt8.toNat_inj.mp
      rw [UInt8.toNat_ofNat']
      omega
    have hhigh : (b.toNat + 256*leNat s)/256 = leNat s := by omega
    rw [List.length_cons, leNat, putLE, hlow, hhigh, ih]

theorem beNat_putBE (k n : ℕ) (h : n < 256^k) : beNat (putBE k n) = n := by
  rw [beNat, putBE, List.reverse_reverse, leNat_putLE, Nat.mod_eq_of_lt h]

theorem putBE_beNat (s : Bytes) : putBE s.length (beNat s) = s := by
  have hs := putLE_leNat s.reverse
  rw [List.length_reverse] at hs
  rw [putBE, beNat, hs, List.reverse_reverse]

end Faultline
