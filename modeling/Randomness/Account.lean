import Randomness.Address
import Randomness.Discriminator

/-!
The records that the coordinator keeps in accounts.
-/

namespace Randomness

inductive RequestStatus where
  | pending
  | fulfilled
  /-- Only legacy requests are consumed. -/
  | consumed
  deriving DecidableEq

namespace RequestStatus

def code : RequestStatus → UInt8
  | .pending => 0
  | .fulfilled => 1
  | .consumed => 2

def ofCode? (n : UInt8) : Option RequestStatus :=
  if n = 0 then some .pending else if n = 1 then some .fulfilled else if n = 2 then some .consumed else none

def name : RequestStatus → String
  | .pending => "Pending"
  | .fulfilled => "Fulfilled"
  | .consumed => "Consumed"

@[simp] theorem ofCode?_code (s : RequestStatus) : ofCode? s.code = some s := by cases s <;> rfl

end RequestStatus

structure LegacyConfig where
  admin : Address
  authority : Address
  fee : UInt64
  requestCounter : UInt64
  treasury : Address
  bump : UInt8
  deriving DecidableEq

structure CoordinatorConfig where
  admin : Address
  authority : Address
  feePerWord : UInt64
  maxNumWords : UInt32
  requestCounter : UInt64
  subscriptionCounter : UInt64
  bump : UInt8
  deriving DecidableEq

structure Subscription where
  id : UInt64
  owner : Address
  balance : UInt64
  reqCount : UInt64
  consumerCount : UInt32
  bump : UInt8
  deriving DecidableEq

structure ConsumerRegistration where
  subscriptionId : UInt64
  programId : Address
  nonce : UInt64
  bump : UInt8
  deriving DecidableEq

structure LegacyRequest where
  requestId : UInt64
  requester : Address
  seed : Block 32
  requestSlot : UInt64
  /-- Zero for a request without callback. -/
  callbackProgram : Address
  status : RequestStatus
  randomness : Block 32
  fulfilledSlot : UInt64
  bump : UInt8
  deriving DecidableEq

structure WordsRequest where
  requestId : UInt64
  subscriptionId : UInt64
  consumerProgram : Address
  requester : Address
  numWords : UInt32
  seed : Block 32
  requestSlot : UInt64
  callbackComputeLimit : UInt32
  status : RequestStatus
  randomness : Block 32
  fulfilledSlot : UInt64
  numCallbackAccounts : UInt8
  callbackAccounts : Vector Address 4
  /-- Bit `i` says that callback account `i` is writable. -/
  callbackWritableBitmap : UInt8
  bump : UInt8
  deriving DecidableEq

structure CompressedRequest where
  requestId : UInt64
  requester : Address
  seed : Block 32
  requestSlot : UInt64
  status : RequestStatus
  randomness : Block 32
  deriving DecidableEq

def maxCallbackAccounts : Nat := 4

/-- Total fee for `numWords` words, unless it takes more than 64 bits. -/
def CoordinatorConfig.feeFor? (c : CoordinatorConfig) (numWords : UInt32) : Option UInt64 :=
  let fee := c.feePerWord.toNat * numWords.toNat
  if fee < UInt64.size then some (UInt64.ofNat fee) else none

/-- The kinds of account. -/
inductive Kind where
  | legacyConfig
  | coordinatorConfig
  | subscription
  | consumerRegistration
  | legacyRequest
  | wordsRequest
  | compressedRequest
  deriving DecidableEq

namespace Kind

abbrev Record : Kind → Type
  | legacyConfig => LegacyConfig
  | coordinatorConfig => CoordinatorConfig
  | subscription => Subscription
  | consumerRegistration => ConsumerRegistration
  | legacyRequest => LegacyRequest
  | wordsRequest => WordsRequest
  | compressedRequest => CompressedRequest

/-- The kind's name in error messages. -/
def name : Kind → String
  | legacyConfig => "VrfConfiguration"
  | coordinatorConfig => "CoordinatorConfig"
  | subscription => "Subscription"
  | consumerRegistration => "ConsumerRegistration"
  | legacyRequest => "RandomnessRequest(legacy)"
  | wordsRequest => "RandomnessRequest"
  | compressedRequest => "CompressedRandomnessRequest"

def discriminator : Kind → Discriminator
  | legacyConfig => Discriminator.Account.legacyConfig
  | coordinatorConfig => Discriminator.Account.coordinatorConfig
  | subscription => Discriminator.Account.subscription
  | consumerRegistration => Discriminator.Account.consumerRegistration
  | legacyRequest => Discriminator.Account.randomnessRequest
  | wordsRequest => Discriminator.Account.randomnessRequest
  | compressedRequest => Discriminator.Account.compressedRequest

end Kind

inductive DecodeError where
  | tooShort (kind : Kind) (expected actual : Nat)
  | wrongDiscriminator (kind : Kind) (expected actual : Discriminator)
  | invalidStatus (kind : Kind) (value : UInt8)
  | invalidCallbackCount (kind : Kind) (count : UInt8) (max : Nat)
  deriving DecidableEq

namespace DecodeError

/-- Bytes as a bracketed list of numbers. -/
def listText (bs : Bytes) : String := "[" ++ ", ".intercalate (bs.map fun b => toString b.toNat) ++ "]"

def message : DecodeError → String
  | .tooShort k expected actual =>
    k.name ++ ": account data too short, expected " ++ toString expected ++ " bytes, got " ++ toString actual
  | .wrongDiscriminator k expected actual =>
    k.name ++ ": wrong discriminator, expected " ++ listText expected.bytes ++ ", got " ++ listText actual.bytes
  | .invalidStatus k value => k.name ++ ": invalid status byte " ++ toString value.toNat
  | .invalidCallbackCount k count max =>
    k.name ++ ": " ++ toString count.toNat ++ " callback accounts exceeds the maximum of " ++ toString max

end DecodeError

end Randomness
