import Randomness.Account.Layout
import Randomness.Generation

/-!
Configurations and requests of either generation. The generation is the reader's choice: the two
kinds of request share a discriminator.
-/

namespace Randomness

inductive ConfigAccount where
  | legacy (c : LegacyConfig)
  | subscription (c : CoordinatorConfig)
  deriving DecidableEq

namespace ConfigAccount

def decode (g : Generation) (data : Bytes) : Except DecodeError ConfigAccount :=
  match g with
  | .legacy => (Kind.legacyConfig.decode data).map legacy
  | .subscription => (Kind.coordinatorConfig.decode data).map subscription

def requestCounter : ConfigAccount → UInt64
  | legacy c => c.requestCounter
  | subscription c => c.requestCounter

def authority : ConfigAccount → Address
  | legacy c => c.authority
  | subscription c => c.authority

end ConfigAccount

inductive RequestAccount where
  | legacy (r : LegacyRequest)
  | subscription (r : WordsRequest)
  deriving DecidableEq

namespace RequestAccount

def decode (g : Generation) (data : Bytes) : Except DecodeError RequestAccount :=
  match g with
  | .legacy => (Kind.legacyRequest.decode data).map legacy
  | .subscription => (Kind.wordsRequest.decode data).map subscription

def requestId : RequestAccount → UInt64
  | legacy r => r.requestId
  | subscription r => r.requestId

def requester : RequestAccount → Address
  | legacy r => r.requester
  | subscription r => r.requester

def status : RequestAccount → RequestStatus
  | legacy r => r.status
  | subscription r => r.status

def randomness : RequestAccount → Block 32
  | legacy r => r.randomness
  | subscription r => r.randomness

def requestSlot : RequestAccount → UInt64
  | legacy r => r.requestSlot
  | subscription r => r.requestSlot

def fulfilledSlot : RequestAccount → UInt64
  | legacy r => r.fulfilledSlot
  | subscription r => r.fulfilledSlot

end RequestAccount

/-- The kind of request account under a generation. -/
def Generation.requestKind : Generation → Kind
  | .legacy => .legacyRequest
  | .subscription => .wordsRequest

/-- Offset of the status byte in a request account's data. -/
def Generation.statusOffset : Generation → Nat
  | .legacy => 120
  | .subscription => 136

end Randomness
