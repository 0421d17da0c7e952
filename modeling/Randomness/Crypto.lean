import Randomness.Address
import Randomness.Ed25519

/-!
The cryptographic functions that the coordinator's rules are stated over.
-/

namespace Randomness

abbrev Secret := Block 32
abbrev Signature := Block 64

class Crypto where
  hash : Bytes → Block 32
  isOnCurve : Block 32 → Bool
  publicKey : Secret → Address
  sign : Secret → Bytes → Signature
  verify : Address → Bytes → Signature → Bool

/-- SHA-256 and Ed25519. -/
@[reducible] def Crypto.standard : Crypto where
  hash := Sha2.sha256.digest
  isOnCurve := Ed25519.isOnCurve
  publicKey := Ed25519.publicKey
  sign := Ed25519.sign
  verify := Ed25519.verify

end Randomness
