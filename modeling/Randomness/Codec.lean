import Randomness.Address
import Randomness.Bytes.LittleEndian

/-!
Fixed-width layouts. A codec is a one-to-one correspondence between values and blocks of its width,
so a layout that is put together from codecs neither loses nor confuses values.
-/

namespace Randomness

structure Codec (α : Type) where
  width : Nat
  write : α → Block width
  read : Block width → α
  read_write : ∀ a, read (write a) = a
  write_read : ∀ b, write (read b) = b

namespace Codec

def encode (c : Codec α) (a : α) : Bytes := (c.write a).bytes

@[simp] theorem length_encode (c : Codec α) (a : α) : (c.encode a).length = c.width :=
  (c.write a).length_eq

/-- The value at offset `i`, where the string reaches that far. -/
def readAt? (c : Codec α) (bs : Bytes) (i : Nat) : Option α := (bs.slice? i c.width).map c.read

def block (n : Nat) : Codec (Block n) := ⟨n, id, id, fun _ => rfl, fun _ => rfl⟩

def address : Codec Address := block 32

/-- Numbers below `LittleEndian.size w`, given as a type by `toNat` and `ofNat`. -/
def word (w : Nat) (toNat : α → Nat) (ofNat : Nat → α)
    (ofNat_toNat : ∀ a, ofNat (toNat a) = a) (lt : ∀ a, toNat a < LittleEndian.size w)
    (toNat_ofNat : ∀ n, n < LittleEndian.size w → toNat (ofNat n) = n) : Codec α where
  width := w
  write a := ⟨LittleEndian.encode w (toNat a), LittleEndian.length_encode w _⟩
  read b := ofNat (LittleEndian.decode b.bytes)
  read_write a := by rw [LittleEndian.decode_encode_of_lt (lt a), ofNat_toNat]
  write_read b := by
    have h := LittleEndian.decode_lt b.bytes
    rw [b.length_eq] at h
    ext1
    simp only [toNat_ofNat _ h]
    have e := LittleEndian.encode_decode b.bytes
    rwa [b.length_eq] at e

def u8 : Codec UInt8 :=
  word 1 UInt8.toNat UInt8.ofNat (by simp) (fun a => a.toNat_lt)
    fun _ h => UInt8.toNat_ofNat_of_lt h

def u16 : Codec UInt16 :=
  word 2 UInt16.toNat UInt16.ofNat (by simp) (fun a => a.toNat_lt)
    fun _ h => UInt16.toNat_ofNat_of_lt h

def u32 : Codec UInt32 :=
  word 4 UInt32.toNat UInt32.ofNat (by simp) (fun a => a.toNat_lt)
    fun _ h => UInt32.toNat_ofNat_of_lt h

def u64 : Codec UInt64 :=
  word 8 UInt64.toNat UInt64.ofNat (by simp) (fun a => a.toNat_lt)
    fun _ h => UInt64.toNat_ofNat_of_lt h

def pair (c : Codec α) (d : Codec β) : Codec (α × β) where
  width := c.width + d.width
  write ab := (c.write ab.1).append (d.write ab.2)
  read b := (c.read b.front, d.read b.back)
  read_write ab := by simp [c.read_write, d.read_write]
  write_read b := by simp [c.write_read, d.write_read]

theorem encode_pair (c : Codec α) (d : Codec β) (ab : α × β) :
    (c.pair d).encode ab = c.encode ab.1 ++ d.encode ab.2 := rfl

/-- An optional value: a zero byte, or a one byte and the value. -/
def encodeOption (c : Codec α) : Option α → Bytes
  | none => [0]
  | some a => 1 :: c.encode a

end Codec

end Randomness
