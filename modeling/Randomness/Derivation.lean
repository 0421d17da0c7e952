import Randomness.Crypto
import Randomness.Generation
import Randomness.Bytes.LittleEndian

/-!
Addresses derived from seeds: hashes that are no point of the curve, so that no secret belongs to
them. A bump byte is tried downwards from 255 until the hash is off the curve.
-/

namespace Randomness

inductive DerivationError where
  | noValidBump (program : Address)
  | seedTooLong (index length max : Nat)
  | tooManySeeds (count max : Nat)
  deriving DecidableEq

namespace DerivationError

def message : DerivationError → String
  | noValidBump program => "no valid bump found for seeds under program " ++ program.text
  | seedTooLong index length max =>
    "seed " ++ toString index ++ " is " ++ toString length ++ " bytes, maximum is " ++ toString max
  | tooManySeeds count max => toString count ++ " seeds supplied, maximum is " ++ toString max

end DerivationError

namespace Derivation

/-- Most seeds of an address, with the bump. -/
def maxSeeds : Nat := 16

def maxSeedLength : Nat := 32

def marker : Bytes := Text.ascii "ProgramDerivedAddress"

/-- Why seeds have no address. -/
inductive SeedFault where
  | lengthExceeded
  | onCurve
  deriving DecidableEq

/-- What is hashed for an address. -/
def preimage (seeds : List Bytes) (bump : UInt8) (program : Address) : Bytes :=
  seeds.flatten ++ bump :: program.bytes ++ marker

/-- The first seed from position `i` on that is too long, with its position. -/
def findLong (i : Nat) : List Bytes → Option (Nat × Nat)
  | [] => none
  | s :: ss => if s.length > maxSeedLength then some (i, s.length) else findLong (i + 1) ss

section

variable [Crypto]

/-- The address of seeds as they are. -/
def create (seeds : List Bytes) (program : Address) : Except SeedFault Address :=
  if seeds.length > maxSeeds then .error .lengthExceeded
  else if seeds.any fun s => s.length > maxSeedLength then .error .lengthExceeded
  else
    let address := Crypto.hash (seeds.flatten ++ program.bytes ++ marker)
    if Crypto.isOnCurve address then .error .onCurve else .ok address

/-- Tries the bumps from `n` down to 1, each as one more seed. Only a point of the curve leads to the next one. -/
def search (seeds : List Bytes) (program : Address) : Nat → Option (Address × UInt8)
  | 0 => none
  | n + 1 =>
    let bump := UInt8.ofNat (n + 1)
    match create (seeds ++ [[bump]]) program with
    | .ok address => some (address, bump)
    | .error .onCurve => search seeds program n
    | .error .lengthExceeded => none

def derive (seeds : List Bytes) (program : Address) : Except DerivationError (Address × UInt8) :=
  if seeds.length ≥ maxSeeds then .error (.tooManySeeds seeds.length (maxSeeds - 1))
  else match findLong 0 seeds with
    | some (i, n) => .error (.seedTooLong i n maxSeedLength)
    | none => match search seeds program 255 with
      | none => .error (.noValidBump program)
      | some found => .ok found

end

end Derivation

/-- The accounts of the coordinator, by what determines their addresses under a program. -/
inductive Place where
  | config (g : Generation)
  | subscription (id : UInt64)
  | consumer (subscriptionId : UInt64) (program : Address)
  | request (g : Generation) (id : UInt64)
  deriving DecidableEq

namespace Place

def idSeed (id : UInt64) : Bytes := LittleEndian.encode 8 id.toNat

def configSeed : Generation → Bytes
  | .legacy => Text.ascii "vrf-config"
  | .subscription => Text.ascii "coordinator-config"

def requestSeed : Generation → Bytes
  | .legacy => Text.ascii "request"
  | .subscription => Text.ascii "vrf-request"

def seeds : Place → List Bytes
  | config g => [configSeed g]
  | subscription id => [Text.ascii "subscription", idSeed id]
  | consumer id program => [Text.ascii "consumer", idSeed id, program.bytes]
  | request g id => [requestSeed g, idSeed id]

def address [Crypto] (p : Place) (program : Address) : Except DerivationError (Address × UInt8) :=
  Derivation.derive p.seeds program

end Place

end Randomness
