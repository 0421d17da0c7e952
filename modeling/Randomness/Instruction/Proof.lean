import Randomness.Instruction

/-!
The instruction that carries a signature. A fulfillment is only valid beside one in which the
authority signs the request's id and randomness.
-/

namespace Randomness.Proof

open Instruction

/-- What the authority signs. -/
def message (id : UInt64) (randomness : Block 32) : Block 40 :=
  (Codec.u64.write id).append randomness

def keyOffset : Nat := 16
def signatureOffset : Nat := 48
def messageOffset : Nat := 112

/-- One signature, and where it, the key and the message stand in this same instruction. The length
has two bytes and is taken modulo `2 ^ 16`. -/
def header (messageLength : Nat) : Bytes :=
  [1, 0] ++ [signatureOffset, 65535, keyOffset, 65535, messageOffset, messageLength, 65535].flatMap
    (LittleEndian.encode 2)

def instruction [Crypto] (secret : Secret) (message : Bytes) : Instruction where
  program := signatureProgram
  accounts := []
  data := header message.length ++ (Crypto.publicKey secret).bytes ++ (Crypto.sign secret message).bytes ++
    message

end Randomness.Proof
