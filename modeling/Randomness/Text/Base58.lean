import Randomness.Text

/-!
Base 58: a byte string read as one big-endian number, with a `1` for each leading zero byte.
-/

namespace Randomness.Base58

def alphabet : List Char := "123456789ABCDEFGHJKLMNPQRSTUVWXYZabcdefghijkmnopqrstuvwxyz".toList

/-- The digits of `n`, most significant first; none for zero. -/
def digits (n : Nat) : List Nat :=
  if _ : n = 0 then [] else digits (n / 58) ++ [n % 58]
decreasing_by omega

def ofDigits (ds : List Nat) : Nat := ds.foldl (fun n d => n * 58 + d) 0

/-- The big-endian bytes of `n`; none for zero. -/
def bigEndian (n : Nat) : Bytes :=
  if _ : n = 0 then [] else bigEndian (n / 256) ++ [UInt8.ofNat n]
decreasing_by omega

def ofBigEndian (bs : Bytes) : Nat := bs.foldl (fun n b => n * 256 + b.toNat) 0

def encode (bs : Bytes) : String :=
  let zeros := bs.takeWhile (· == 0)
  String.ofList ((zeros.map fun _ => '1') ++ (digits (ofBigEndian bs)).map (alphabet.getD · '1'))

inductive Fault where
  | invalidCharacter (c : Char) (offset : Nat)
  | nonAscii (offset : Nat)
  deriving DecidableEq

/-- An ASCII character between single quotes; one that cannot be seen is named. -/
def quoted (c : Char) : String :=
  let inner : List Char :=
    if c = '\'' ∨ c = '\\' then ['\\', c]
    else if c = '\n' then ['\\', 'n']
    else if c = '\r' then ['\\', 'r']
    else if c = '\t' then ['\\', 't']
    else if c.toNat = 0 then ['\\', '0']
    else if c.toNat < 0x20 ∨ c.toNat = 0x7f then
      ['\\', 'u', '\x7b'] ++ Nat.toDigits 16 c.toNat ++ ['\x7d']
    else [c]
  String.ofList ('\'' :: inner ++ ['\''])

def Fault.message : Fault → String
  | .invalidCharacter c offset =>
    "provided string contained invalid character " ++ quoted c ++ " at byte " ++ toString offset
  | .nonAscii offset =>
    "provided string contained non-ascii character starting at byte " ++ toString offset

def digit? (c : Char) : Option Nat := alphabet.idxOf? c

/-- The digits from byte offset `i` on. -/
def readDigits (i : Nat) : List Char → Except Fault (List Nat)
  | [] => .ok []
  | c :: cs =>
    if c.toNat > 127 then .error (.nonAscii i)
    else match digit? c with
      | none => .error (.invalidCharacter c i)
      | some d => (readDigits (i + 1) cs).map (d :: ·)

def decode (cs : List Char) : Except Fault Bytes :=
  (readDigits 0 cs).map fun ds =>
    (ds.takeWhile (· == 0)).map (fun _ => 0) ++ bigEndian (ofDigits ds)

end Randomness.Base58
