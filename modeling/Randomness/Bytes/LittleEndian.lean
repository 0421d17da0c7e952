import Randomness.Bytes

/-!
Numbers as bytes, least significant byte first. On numbers below `size w` and strings of `w` bytes
the two directions undo each other.
-/

namespace Randomness.LittleEndian

/-- The `w` lowest bytes of `n`. -/
def encode : Nat → Nat → Bytes
  | 0, _ => []
  | w + 1, n => UInt8.ofNat n :: encode w (n / 256)

def decode : Bytes → Nat
  | [] => 0
  | b :: bs => b.toNat + 256 * decode bs

/-- How many strings of `w` bytes there are. -/
def size : Nat → Nat
  | 0 => 1
  | w + 1 => 256 * size w

@[simp] theorem length_encode (w n : Nat) : (encode w n).length = w := by
  induction w generalizing n with
  | zero => rfl
  | succ w ih => simp [encode, ih]

theorem decode_encode (w n : Nat) : decode (encode w n) = n % size w := by
  induction w generalizing n with
  | zero => simp [encode, decode, size, Nat.mod_one]
  | succ w ih =>
    rw [encode, decode, ih, size, Nat.mod_mul]
    simp

theorem decode_encode_of_lt {w n : Nat} (h : n < size w) : decode (encode w n) = n := by
  rw [decode_encode, Nat.mod_eq_of_lt h]

theorem decode_lt (bs : Bytes) : decode bs < size bs.length := by
  induction bs with
  | nil => simp [decode, size]
  | cons b bs ih =>
    have hb := b.toNat_lt
    rw [decode, List.length_cons, size]
    omega

theorem encode_decode (bs : Bytes) : encode bs.length (decode bs) = bs := by
  induction bs with
  | nil => rfl
  | cons b bs ih =>
    have hb := b.toNat_lt
    have low : (b.toNat + 256 * decode bs) / 256 = decode bs := by omega
    rw [List.length_cons, encode, decode, low, ih]
    congr 1
    apply UInt8.toNat_inj.1
    simp

end Randomness.LittleEndian
