import Randomness.Text

/-!
Decimal numerals of unsigned numbers.
-/

namespace Randomness.Numeral

inductive Fault where
  | empty
  | invalidDigit
  | tooLarge
  deriving DecidableEq

def Fault.message : Fault → String
  | .empty => "cannot parse integer from empty string"
  | .invalidDigit => "invalid digit found in string"
  | .tooLarge => "number too large to fit in target type"

def digit? (c : Char) : Option Nat :=
  if '0' ≤ c ∧ c ≤ '9' then some (c.toNat - '0'.toNat) else none

/-- The digits `cs` behind those of `n`. The leftmost fault counts, so a value above `bound` is
reported before a later character that is no digit. -/
def readDigits (bound n : Nat) : List Char → Except Fault Nat
  | [] => .ok n
  | c :: cs => match digit? c with
    | none => .error .invalidDigit
    | some x => if n * 10 + x > bound then .error .tooLarge else readDigits bound (n * 10 + x) cs

/-- A number up to `bound`, with or without a plus sign. -/
def read (bound : Nat) : List Char → Except Fault Nat
  | [] => .error .empty
  | ['+'] => .error .invalidDigit
  | '+' :: cs => readDigits bound 0 cs
  | cs => readDigits bound 0 cs

end Randomness.Numeral
