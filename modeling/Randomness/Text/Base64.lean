import Randomness.Text

/-!
Base 64 with the standard alphabet. Padding is required and unused bits are zero, so every byte
string has one written form.
-/

namespace Randomness.Base64

def alphabet : List Char := "ABCDEFGHIJKLMNOPQRSTUVWXYZabcdefghijklmnopqrstuvwxyz0123456789+/".toList

def symbol (n : Nat) : Char := alphabet.getD n 'A'

/-- The value of the symbol whose ASCII code is `b`. -/
def value? (b : UInt8) : Option Nat := alphabet.idxOf? (Char.ofNat b.toNat)

def pad : UInt8 := 61

def encodeChars : Bytes → List Char
  | a :: b :: c :: rest =>
    let n := a.toNat * 65536 + b.toNat * 256 + c.toNat
    symbol (n / 262144) :: symbol (n / 4096 % 64) :: symbol (n / 64 % 64) :: symbol (n % 64) :: encodeChars rest
  | [a, b] =>
    let n := a.toNat * 1024 + b.toNat * 4
    [symbol (n / 4096), symbol (n / 64 % 64), symbol (n % 64), '=']
  | [a] => [symbol (a.toNat / 4), symbol (a.toNat % 4 * 16), '=', '=']
  | [] => []

def encode (bs : Bytes) : String := String.ofList (encodeChars bs)

/-- Why a text is no written form. Offsets count bytes. -/
inductive Fault where
  | invalidSymbol (code : UInt8) (offset : Nat)
  | invalidLastSymbol (code : UInt8) (offset : Nat)
  | invalidLength (length : Nat)
  | invalidPadding
  deriving DecidableEq

def Fault.message : Fault → String
  | .invalidSymbol code offset =>
    "Invalid symbol " ++ toString code.toNat ++ ", offset " ++ toString offset ++ "."
  | .invalidLastSymbol code offset =>
    "Invalid last symbol " ++ toString code.toNat ++ ", offset " ++ toString offset ++ "."
  | .invalidLength length => "Invalid input length: " ++ toString length
  | .invalidPadding => "Invalid padding"

/-- Values of symbols that stand before the last group, where no padding may be. -/
def values (i : Nat) : Bytes → Except Fault (List Nat)
  | [] => .ok []
  | b :: bs => match value? b with
    | none => .error (.invalidSymbol b i)
    | some v => (values (i + 1) bs).map (v :: ·)

/-- Bytes of complete groups of four values. -/
def joinGroups : List Nat → Bytes
  | a :: b :: c :: d :: rest =>
    let n := a * 262144 + b * 4096 + c * 64 + d
    UInt8.ofNat (n / 65536) :: UInt8.ofNat (n / 256) :: UInt8.ofNat n :: joinGroups rest
  | _ => []

/-- Values of the last group, which starts at offset `i`, with the number of its padding bytes.
`k` bytes of it are read and `padAt` is where its padding began. -/
def lastValues (i k : Nat) (padAt : Option Nat) : Bytes → Except Fault (List Nat × Nat)
  | [] => .ok ([], 0)
  | b :: bs =>
    if b = pad then
      if k < 2 then .error (.invalidSymbol b (i + k))
      else (lastValues i (k + 1) (padAt.or (some k)) bs).map fun (vs, p) => (vs, p + 1)
    else match padAt, value? b with
      | some j, _ => .error (.invalidSymbol pad (i + j))
      | none, none => .error (.invalidSymbol b (i + k))
      | none, some v => (lastValues i (k + 1) none bs).map fun (vs, p) => (v :: vs, p)

/-- Bytes of the last group, whose text is `group` at offset `i`. -/
def decodeLast (i : Nat) (group : Bytes) : Except Fault Bytes := do
  let (vs, pads) ← lastValues i 0 none group
  if vs.length < 2 then .error (.invalidLength (i + vs.length + pads))
  else if (vs.length + pads) % 4 ≠ 0 then .error .invalidPadding
  else
    let unused := if vs.length = 2 then 16 else if vs.length = 3 then 4 else 1
    if vs.getLastD 0 % unused ≠ 0 then
      .error (.invalidLastSymbol (group.getD (vs.length - 1) 0) (i + vs.length - 1))
    else .ok ((joinGroups (vs ++ [0, 0])).take (vs.length * 6 / 8))

def decode (text : Bytes) : Except Fault Bytes :=
  let rest := text.length % 4
  let last := text.getLastD 0
  if text.isEmpty then .ok []
  else if rest = 1 && last != pad && (value? last).isNone then
    .error (.invalidSymbol last (text.length - 1))
  else do
    let n := text.length - (if rest = 0 then 4 else rest)
    let front ← values 0 (text.take n)
    let back ← decodeLast n (text.drop n)
    .ok (joinGroups front ++ back)

end Randomness.Base64
