import Randomness.Text.Base58

/-!
Addresses: 32 bytes, written in base 58.
-/

namespace Randomness

abbrev Address := Block 32

namespace Address

def zero : Address := Block.zero 32

def text (a : Address) : String := Base58.encode a.bytes

inductive Fault where
  | wrongSize
  | invalid
  deriving DecidableEq

def Fault.message : Fault → String
  | .wrongSize => "String is the wrong size"
  | .invalid => "Invalid Base58 string"

/-- An address never takes more than 44 characters; longer texts are refused unread. -/
def parse (s : String) : Except Fault Address :=
  if s.utf8ByteSize > 44 then .error .wrongSize
  else match Base58.decode s.toList with
    | .error _ => .error .invalid
    | .ok bs => match Block.ofBytes? 32 bs with
      | none => .error .wrongSize
      | some a => .ok a

end Address

end Randomness
