import Mathlib.Logic.Function.Basic
import Randomness.Coordinator
import Randomness.Proofs.Operation
import Randomness.Proofs.RoundTrip

/-!
The coordinators by their records: what a command does when accounts are named by places instead of
addresses and hold records instead of bytes.
-/

namespace Randomness

/-- What the coordinators hold: for each site its record, or nothing. -/
abbrev Registry := (s : Site) → Option s.kind.Record

/-- What a command can see of the transaction around it. -/
structure Scene where
  slot : UInt64
  signers : List Address
  /-- Whether the transaction proves that an authority signed an id and a random block. -/
  proves : Address → UInt64 → Block 32 → Bool

namespace Registry

def empty : Registry := fun _ => none

def put (σ : Registry) (s : Site) (r : s.kind.Record) : Registry := Function.update σ s (some r)

def drop (σ : Registry) (s : Site) : Registry := Function.update σ s none

@[simp] theorem put_self (σ : Registry) (s : Site) (r : s.kind.Record) : σ.put s r s = some r :=
  Function.update_self ..

theorem put_of_ne (σ : Registry) {s t : Site} (r : s.kind.Record) (h : t ≠ s) : σ.put s r t = σ t :=
  Function.update_of_ne h ..

@[simp] theorem drop_self (σ : Registry) (s : Site) : σ.drop s s = none :=
  Function.update_self ..

theorem drop_of_ne (σ : Registry) {s t : Site} (h : t ≠ s) : σ.drop s t = σ t :=
  Function.update_of_ne h ..

/-- The record at a site, if its kind allows it. -/
def find (σ : Registry) (s : Site) : Option s.kind.Record := (σ s).filter fun r => s.kind.Legible r

theorem find_eq_some {σ : Registry} {s : Site} {r : s.kind.Record} :
    σ.find s = some r ↔ σ s = some r ∧ s.kind.Legible r := by
  rw [find, Option.filter_eq_some_iff, decide_eq_true_iff]

/-- What a command leads to: the records after it and what is logged. -/
abbrev Result := Registry × List LogEntry

section

variable [Crypto] (x : Scene) (σ : Registry) (P : Address)

def initializeLegacy (admin authority treasury : Address) (fee : UInt64) : Option Result := do
  guard (σ (.legacyConfig P)).isNone
  return (σ.put (.legacyConfig P)
    { admin, authority, fee, requestCounter := 0, treasury, bump := (Site.legacyConfig P).bump }, [])

def initializeSubscription (admin authority : Address) (feePerWord : UInt64) (maxNumWords : UInt32) :
    Option Result := do
  guard (σ (.coordinatorConfig P)).isNone
  return (σ.put (.coordinatorConfig P)
    { admin, authority, feePerWord, maxNumWords, requestCounter := 0, subscriptionCounter := 0
      bump := (Site.coordinatorConfig P).bump }, [])

/-- The id has to be the next one. -/
def requestRandomness (requester : Address) (callback : Option Address) (id : UInt64) (seed : Bytes) :
    Option Result := do
  let seed ← Block.ofBytes? 32 seed
  let config ← σ.find (.legacyConfig P)
  guard (config.requestCounter = id)
  guard (σ (.legacyRequest P id)).isNone
  let requestCounter ← (Coordinator.next64 config.requestCounter).toOption
  let request : LegacyRequest :=
    { requestId := id, requester, seed, requestSlot := x.slot
      callbackProgram := callback.getD Address.zero, status := .pending, randomness := Block.zero 32
      fulfilledSlot := 0, bump := (Site.legacyRequest P id).bump }
  return ((σ.put (.legacyRequest P id) request).put (.legacyConfig P) { config with requestCounter },
    [.event (.randomnessRequested { requestId := id, requester, seed, requestSlot := x.slot })])

def fulfillRandomness (id : UInt64) (randomness : Block 32) : Option Result := do
  let config ← σ.find (.legacyConfig P)
  guard (x.proves config.authority id randomness)
  let request ← σ.find (.legacyRequest P id)
  guard (request.status = .pending)
  return (σ.put (.legacyRequest P id)
      { request with status := .fulfilled, randomness, fulfilledSlot := x.slot },
    [.event (.randomnessFulfilled { requestId := id, randomness })])

def consumeRandomness (requester : Address) (id : UInt64) : Option Result := do
  let request ← σ.find (.legacyRequest P id)
  guard (request.requester = requester)
  guard (request.status = .fulfilled)
  return (σ.put (.legacyRequest P id) { request with status := .consumed }, [])

def closeRequest (id : UInt64) : Option Result := do
  let request ← σ.find (.legacyRequest P id)
  guard (request.status = .consumed)
  return (σ.drop (.legacyRequest P id), [])

/-- The id has to be the next one. -/
def createSubscription (owner : Address) (id : UInt64) : Option Result := do
  let config ← σ.find (.coordinatorConfig P)
  guard (config.subscriptionCounter = id)
  guard (σ (.subscription P id)).isNone
  let subscriptionCounter ← (Coordinator.next64 config.subscriptionCounter).toOption
  let sub : Subscription :=
    { id, owner, balance := 0, reqCount := 0, consumerCount := 0, bump := (Site.subscription P id).bump }
  return ((σ.put (.subscription P id) sub).put (.coordinatorConfig P) { config with subscriptionCounter }, [])

def fundSubscription (id amount : UInt64) : Option Result := do
  let sub ← σ.find (.subscription P id)
  guard (sub.balance.toNat + amount.toNat < UInt64.size)
  return (σ.put (.subscription P id) { sub with balance := sub.balance + amount }, [])

def addConsumer (owner : Address) (id : UInt64) (consumer : Address) : Option Result := do
  let sub ← σ.find (.subscription P id)
  guard (sub.owner = owner)
  guard (σ (.registration P id consumer)).isNone
  let consumerCount ← (Coordinator.next32 sub.consumerCount).toOption
  let registration : ConsumerRegistration :=
    { subscriptionId := id, programId := consumer, nonce := 0
      bump := (Site.registration P id consumer).bump }
  return ((σ.put (.registration P id consumer) registration).put (.subscription P id)
    { sub with consumerCount }, [])

def removeConsumer (owner : Address) (id : UInt64) (consumer : Address) : Option Result := do
  let sub ← σ.find (.subscription P id)
  guard (sub.owner = owner)
  let _ ← σ.find (.registration P id consumer)
  let consumerCount ← (Coordinator.previous32 sub.consumerCount).toOption
  return ((σ.drop (.registration P id consumer)).put (.subscription P id) { sub with consumerCount }, [])

def cancelSubscription (owner : Address) (id : UInt64) : Option Result := do
  let sub ← σ.find (.subscription P id)
  guard (sub.owner = owner)
  guard (sub.consumerCount = 0)
  return (σ.drop (.subscription P id), [])

/-- The id has to be the next one, and the subscription pays for the words. -/
def requestRandomWords (requester : Address) (order : Subscriptions.WordsOrder) : Option Result := do
  let config ← σ.find (.coordinatorConfig P)
  let sub ← σ.find (.subscription P order.subscriptionId)
  let _ ← σ.find (.registration P order.subscriptionId order.consumerProgram)
  guard (order.numWords ≠ 0 ∧ order.numWords ≤ config.maxNumWords)
  let fee ← config.feeFor? order.numWords
  guard (fee ≤ sub.balance)
  guard (config.requestCounter = order.requestId)
  guard (order.callbackAccounts.length ≤ maxCallbackAccounts)
  guard (σ (.wordsRequest P order.requestId)).isNone
  let reqCount ← (Coordinator.next64 sub.reqCount).toOption
  let requestCounter ← (Coordinator.next64 config.requestCounter).toOption
  let request : WordsRequest :=
    { requestId := order.requestId, subscriptionId := order.subscriptionId
      consumerProgram := order.consumerProgram, requester, numWords := order.numWords, seed := order.seed
      requestSlot := x.slot, callbackComputeLimit := order.callbackComputeLimit, status := .pending
      randomness := Block.zero 32, fulfilledSlot := 0
      numCallbackAccounts := UInt8.ofNat order.callbackAccounts.length
      callbackAccounts := Coordinator.callbackSlots order.callbackAccounts
      callbackWritableBitmap := Coordinator.writableBitmap order.callbackAccounts
      bump := (Site.wordsRequest P order.requestId).bump }
  return (((σ.put (.wordsRequest P order.requestId) request).put (.coordinatorConfig P)
        { config with requestCounter }).put (.subscription P order.subscriptionId)
        { sub with balance := sub.balance - fee, reqCount },
    [.event (.randomWordsRequested
      { requestId := order.requestId, subscriptionId := order.subscriptionId
        consumerProgram := order.consumerProgram, requester, numWords := order.numWords, seed := order.seed
        requestSlot := x.slot, callbackComputeLimit := order.callbackComputeLimit })])

def fulfillRandomWords (id : UInt64) (randomness : Block 32) : Option Result := do
  let config ← σ.find (.coordinatorConfig P)
  guard (x.proves config.authority id randomness)
  let request ← σ.find (.wordsRequest P id)
  guard (request.status = .pending)
  let consumerProgram := request.consumerProgram
  return (σ.drop (.wordsRequest P id), [.invoke consumerProgram 2, .success consumerProgram,
    .event (.randomWordsFulfilled { requestId := id, randomness, consumerProgram })])

end

end Registry

/-- What a signed command does; a command that is not understood is refused. -/
def Command.effect [Crypto] (x : Scene) (σ : Registry) (P : Address) : Command → Option Registry.Result
  | initializeLegacy admin authority treasury fee => σ.initializeLegacy P admin authority treasury fee
  | requestRandomness requester _ callback id seed => σ.requestRandomness x P requester callback id seed
  | fulfillRandomness _ id randomness => σ.fulfillRandomness x P id randomness
  | consumeRandomness requester id => σ.consumeRandomness P requester id
  | closeRequest _ id => σ.closeRequest P id
  | initializeSubscription admin authority feePerWord maxNumWords =>
    σ.initializeSubscription P admin authority feePerWord maxNumWords
  | createSubscription owner id => σ.createSubscription P owner id
  | fundSubscription _ id amount => σ.fundSubscription P id amount
  | addConsumer owner id consumer => σ.addConsumer P owner id consumer
  | removeConsumer owner id consumer => σ.removeConsumer P owner id consumer
  | cancelSubscription owner id => σ.cancelSubscription P owner id
  | requestRandomWords requester order => σ.requestRandomWords x P requester order
  | fulfillRandomWords _ stored randomness => σ.fulfillRandomWords x P stored.requestId randomness
  | updateLegacy _ _ => none
  | updateSubscription _ _ => none
  | requestCompressed _ _ _ => none
  | fulfillCompressed _ _ => none

/-- One operation of a transaction. Signatures, and whatever names their program, do nothing. -/
def Operation.step [Crypto] (x : Scene) (σ : Registry) : Operation → Option Registry.Result
  | command P c =>
    if P = Instruction.signatureProgram then some (σ, [])
    else if c.signer ∈ x.signers then c.effect x σ P
    else none
  | signature _ _ => some (σ, [])

end Randomness
