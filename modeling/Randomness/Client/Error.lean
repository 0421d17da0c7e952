import Randomness.Ledger.Error
import Randomness.Text.Duration

/-!
Errors of the client's operations.
-/

namespace Randomness

/-- A request or subscription is not in a state that allows the operation. -/
inductive LifecycleError where
  | wrongState (requestId : UInt64) (expected actual : RequestStatus)
  | unsupportedGeneration (operation : String) (required : Generation)
  | insufficientBalance (subscriptionId required available : UInt64)
  | consumerNotRegistered (subscriptionId : UInt64) (consumer : Address)
  | subscriptionHasConsumers (subscriptionId : UInt64) (count : UInt32)
  | requestClosed (requestId : UInt64)
  deriving DecidableEq

inductive ClientError where
  | decode (e : DecodeError)
  | derivation (e : DerivationError)
  | argument (e : ArgumentError)
  | lifecycle (e : LifecycleError)
  | notFound (what : String) (address : Address)
  | timeout (requestId : UInt64) (elapsed attempts : Nat)
  | ledger (e : LedgerError)
  deriving DecidableEq

namespace LifecycleError

def message : LifecycleError → String
  | wrongState id expected actual =>
    "request " ++ toString id.toNat ++ " is " ++ actual.name ++ ", expected " ++ expected.name
  | unsupportedGeneration operation required =>
    operation ++ " is only available under the " ++ required.name ++ " generation"
  | insufficientBalance id required available =>
    "subscription " ++ toString id.toNat ++ " balance " ++ toString available.toNat ++
      " is below the required fee " ++ toString required.toNat
  | consumerNotRegistered id consumer =>
    "consumer " ++ consumer.text ++ " is not registered on subscription " ++ toString id.toNat
  | subscriptionHasConsumers id count =>
    "subscription " ++ toString id.toNat ++ " still has " ++ toString count.toNat ++ " registered consumers"
  | requestClosed id => "request " ++ toString id.toNat ++ " was closed before its randomness could be read"

end LifecycleError

namespace ClientError

def message : ClientError → String
  | decode e => e.message
  | derivation e => e.message
  | argument e => e.message
  | lifecycle e => e.message
  | notFound what address => what ++ " not found at " ++ address.text
  | timeout id elapsed attempts =>
    "request " ++ toString id.toNat ++ " not fulfilled after " ++ toString attempts ++ " polls over " ++
      durationText elapsed
  | ledger e => e.message

def isLifecycle : ClientError → Bool
  | lifecycle _ => true
  | _ => false

def ofBuild : BuildError → ClientError
  | .argument e => argument e
  | .derivation e => derivation e

end ClientError

end Randomness
