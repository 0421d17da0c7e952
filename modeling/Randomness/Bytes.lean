/-!
Byte strings, and blocks: byte strings whose length is part of the type.
-/

namespace Randomness

abbrev Bytes := List UInt8

/-- A byte string of exactly `n` bytes. -/
@[ext] structure Block (n : Nat) where
  bytes : Bytes
  length_eq : bytes.length = n
  deriving DecidableEq

namespace Block

def ofBytes? (n : Nat) (bs : Bytes) : Option (Block n) :=
  if h : bs.length = n then some ⟨bs, h⟩ else none

def zero (n : Nat) : Block n := ⟨List.replicate n 0, List.length_replicate⟩

instance : Inhabited (Block n) := ⟨zero n⟩

def append (a : Block m) (b : Block n) : Block (m + n) :=
  ⟨a.bytes ++ b.bytes, by rw [List.length_append, a.length_eq, b.length_eq]⟩

/-- The first `m` bytes. -/
def front (b : Block (m + n)) : Block m :=
  ⟨b.bytes.take m, by rw [List.length_take, b.length_eq]; omega⟩

/-- What follows the first `m` bytes. -/
def back (b : Block (m + n)) : Block n :=
  ⟨b.bytes.drop m, by rw [List.length_drop, b.length_eq]; omega⟩

@[simp] theorem ofBytes?_bytes (b : Block n) : ofBytes? n b.bytes = some b := by
  simp [ofBytes?, b.length_eq]

theorem ofBytes?_eq_some_iff {bs : Bytes} {b : Block n} : ofBytes? n bs = some b ↔ bs = b.bytes := by
  unfold ofBytes?
  split
  · simp [Block.ext_iff]
  · next h =>
    simp only [reduceCtorEq, false_iff]
    rintro rfl
    exact h b.length_eq

@[simp] theorem append_bytes (a : Block m) (b : Block n) : (a.append b).bytes = a.bytes ++ b.bytes := rfl

@[simp] theorem front_append (a : Block m) (b : Block n) : (a.append b).front = a := by
  ext1; simp [front, ← a.length_eq]

@[simp] theorem back_append (a : Block m) (b : Block n) : (a.append b).back = b := by
  ext1; simp [back, ← a.length_eq]

@[simp] theorem append_front_back (b : Block (m + n)) : b.front.append b.back = b := by
  ext1; simp [front, back]

end Block

/-- The `n` bytes from offset `i`, where the string reaches that far. -/
def Bytes.slice (bs : Bytes) (i n : Nat) (h : i + n ≤ bs.length) : Block n :=
  ⟨(bs.drop i).take n, by rw [List.length_take, List.length_drop]; omega⟩

def Bytes.slice? (bs : Bytes) (i n : Nat) : Option (Block n) :=
  if h : i + n ≤ bs.length then some (bs.slice i n h) else none

end Randomness
