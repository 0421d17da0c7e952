import Randomness.Text

/-!
Hexadecimal text: two digits for each byte, in lower case. Reading takes either case.
-/

namespace Randomness.Hex

def symbol (n : Nat) : Char := "0123456789abcdef".toList.getD n '0'

def digit? (c : Char) : Option Nat :=
  if '0' ≤ c ∧ c ≤ '9' then some (c.toNat - '0'.toNat)
  else if 'a' ≤ c ∧ c ≤ 'f' then some (c.toNat - 'a'.toNat + 10)
  else if 'A' ≤ c ∧ c ≤ 'F' then some (c.toNat - 'A'.toNat + 10)
  else none

theorem digit?_symbol : ∀ n < 16, digit? (symbol n) = some n := by decide

def encode (bs : Bytes) : List Char :=
  bs.flatMap fun b => [symbol (b.toNat / 16), symbol (b.toNat % 16)]

def decode? : List Char → Option Bytes
  | [] => some []
  | [_] => none
  | a :: b :: cs => do
    return UInt8.ofNat ((← digit? a) * 16 + (← digit? b)) :: (← decode? cs)

theorem decode?_encode (bs : Bytes) : decode? (encode bs) = some bs := by
  induction bs with
  | nil => rfl
  | cons b bs ih =>
    have hb := b.toNat_lt
    have high := digit?_symbol (b.toNat / 16) (by omega)
    have low := digit?_symbol (b.toNat % 16) (by omega)
    have whole : b.toNat / 16 * 16 + b.toNat % 16 = b.toNat := by omega
    show decode? (symbol (b.toNat / 16) :: symbol (b.toNat % 16) :: encode bs) = some (b :: bs)
    rw [decode?, high, low, ih]
    show some (UInt8.ofNat (b.toNat / 16 * 16 + b.toNat % 16) :: bs) = some (b :: bs)
    rw [whole, UInt8.ofNat_toNat]

end Randomness.Hex
