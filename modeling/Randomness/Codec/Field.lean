import Randomness.Codec

/-!
Fields one after the other: writing a list of them, and reading a list of types back from an offset
that moves along.
-/

namespace Randomness

inductive FieldType where
  | u8
  | u16
  | u32
  | u64
  | block (n : Nat)
  deriving DecidableEq

namespace FieldType

abbrev Value : FieldType → Type
  | u8 => UInt8
  | u16 => UInt16
  | u32 => UInt32
  | u64 => UInt64
  | block n => Block n

def codec : (t : FieldType) → Codec t.Value
  | u8 => Codec.u8
  | u16 => Codec.u16
  | u32 => Codec.u32
  | u64 => Codec.u64
  | block n => Codec.block n

def width (t : FieldType) : Nat := t.codec.width

end FieldType

structure Field where
  type : FieldType
  value : type.Value

namespace Field

def encode (f : Field) : Bytes := f.type.codec.encode f.value

@[simp] theorem length_encode (f : Field) : f.encode.length = f.type.width :=
  Codec.length_encode ..

end Field

/-- What can be written: a field, a field that may be absent, or bytes as they are. -/
inductive Item where
  | field (f : Field)
  | optional (f : Option Field)
  | raw (bs : Bytes)

namespace Item

def flag (b : Bool) : Item := .field ⟨.u8, if b then 1 else 0⟩

def encode : Item → Bytes
  | field f => f.encode
  | optional none => [0]
  | optional (some f) => 1 :: f.encode
  | raw bs => bs

def encodeAll (items : List Item) : Bytes := items.flatMap encode

/-- The length after each item, when `n` bytes stand before them. -/
def lengthsFrom (n : Nat) : List Item → List Nat
  | [] => []
  | i :: is => (n + i.encode.length) :: lengthsFrom (n + i.encode.length) is

end Item

/-- A place in a byte string. -/
structure Reader where
  data : Bytes
  offset : Nat

namespace Reader

def start (bs : Bytes) : Reader := ⟨bs, 0⟩

/-- The field at the reader's place, and the place after it; nothing past the end. -/
def next? (r : Reader) (t : FieldType) : Option (t.Value × Reader) :=
  (t.codec.readAt? r.data r.offset).map fun v => (v, ⟨r.data, r.offset + t.width⟩)

/-- Each field with the offset after it, or the position of the first one that reaches past the end. -/
def readAll (r : Reader) : List FieldType → Except Nat (List (Field × Nat))
  | [] => .ok []
  | t :: ts =>
    match r.next? t with
    | none => .error 0
    | some (v, r) => match r.readAll ts with
      | .error k => .error (k + 1)
      | .ok fields => .ok ((⟨t, v⟩, r.offset) :: fields)

def readAll? (r : Reader) (ts : List FieldType) : Option (List (Field × Nat)) := (r.readAll ts).toOption

end Reader

end Randomness
