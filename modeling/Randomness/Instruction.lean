import Randomness.Codec
import Randomness.Account.Layout
import Randomness.Derivation

/-!
Instructions: a program, the accounts it may use, and data that starts with a discriminator.
-/

namespace Randomness

structure AccountMeta where
  key : Address
  isSigner : Bool
  isWritable : Bool
  deriving DecidableEq

namespace AccountMeta

def writable (key : Address) : AccountMeta := ⟨key, false, true⟩
def readonly (key : Address) : AccountMeta := ⟨key, false, false⟩
def writableSigner (key : Address) : AccountMeta := ⟨key, true, true⟩
def readonlySigner (key : Address) : AccountMeta := ⟨key, true, false⟩

end AccountMeta

structure Instruction where
  program : Address
  accounts : List AccountMeta
  data : Bytes
  deriving DecidableEq

/-- Why arguments make no instruction. -/
inductive ArgumentError where
  | wrongLength (name : String) (expected actual : Nat)
  | outOfRange (name : String) (value min max : Nat)
  | zeroAddress (name : String)
  deriving DecidableEq

def ArgumentError.message : ArgumentError → String
  | wrongLength name expected actual =>
    name ++ " must be exactly " ++ toString expected ++ " bytes, got " ++ toString actual
  | outOfRange name value min max =>
    name ++ " = " ++ toString value ++ " is outside " ++ toString min ++ "..=" ++ toString max
  | zeroAddress name => name ++ " must not be the zero address"

/-- Why an instruction cannot be made. -/
inductive BuildError where
  | argument (e : ArgumentError)
  | derivation (e : DerivationError)
  deriving DecidableEq

def BuildError.message : BuildError → String
  | argument e => e.message
  | derivation e => e.message

namespace Instruction

def systemProgram : Address := Address.zero

/-- `Ed25519SigVerify111111111111111111111111111` -/
def signatureProgram : Address :=
  ⟨[3, 125, 70, 214, 124, 147, 251, 190, 18, 249, 66, 143, 131, 141, 64, 255, 5, 112, 116, 73, 39, 244, 138,
    100, 252, 202, 112, 68, 128, 0, 0, 0], rfl⟩

/-- `Sysvar1nstructions1111111111111111111111111` -/
def instructionsAccount : Address :=
  ⟨[6, 167, 213, 23, 24, 123, 209, 102, 53, 218, 212, 4, 85, 253, 194, 192, 193, 36, 198, 143, 33, 86, 117,
    165, 219, 186, 203, 95, 8, 0, 0, 0], rfl⟩

def seedOf (bs : Bytes) : Except ArgumentError (Block 32) :=
  match Block.ofBytes? 32 bs with
  | some s => .ok s
  | none => .error (.wrongLength "seed" 32 bs.length)

def requireNonZero (name : String) (key : Address) : Except BuildError Unit :=
  if key = Address.zero then .error (.argument (.zeroAddress name)) else .ok ()

def requireOptional (name : String) : Option Address → Except BuildError Unit
  | some key => requireNonZero name key
  | none => .ok ()

def outOfRange (name : String) (value min max : Nat) : Except BuildError α :=
  .error (.argument (.outOfRange name value min max))

/-- The address of one of the program's accounts. -/
def addressOf [Crypto] (program : Address) (p : Place) : Except BuildError Address :=
  match p.address program with
  | .ok (a, _) => .ok a
  | .error e => .error (.derivation e)

end Instruction

/-- The callback accounts that a request stores, in order. -/
def WordsRequest.callbackMetas (r : WordsRequest) : List AccountMeta :=
  (r.callbackAccounts.toList.take r.numCallbackAccounts.toNat).zipIdx.map fun (key, i) =>
    ⟨key, false, r.callbackWritableBitmap.toNat.testBit i⟩

end Randomness
