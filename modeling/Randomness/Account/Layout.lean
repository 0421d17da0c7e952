import Randomness.Account
import Randomness.Codec

/-!
Accounts as bytes: a discriminator, then the record's fields, each of fixed width.
-/

namespace Randomness

/-- A record's fields in the order of its account, before any check of their values. -/
structure Layout (α : Type) where
  Fields : Type
  codec : Codec Fields
  fields : α → Fields
  ofFields : Fields → Except DecodeError α

namespace Layout

/-- The status that a kind's accounts may hold: `consumed` only in legacy requests. -/
def readStatus (kind : Kind) (value : UInt8) : Except DecodeError RequestStatus :=
  match RequestStatus.ofCode? value with
  | some .consumed => if kind = .legacyRequest then .ok .consumed else .error (.invalidStatus kind value)
  | some s => .ok s
  | none => .error (.invalidStatus kind value)

open Codec

def legacyConfig : Layout LegacyConfig where
  Fields := Address × Address × UInt64 × UInt64 × Address × UInt8
  codec := address.pair <| address.pair <| u64.pair <| u64.pair <| address.pair u8
  fields r := (r.admin, r.authority, r.fee, r.requestCounter, r.treasury, r.bump)
  ofFields := fun (admin, authority, fee, requestCounter, treasury, bump) =>
    .ok { admin, authority, fee, requestCounter, treasury, bump }

def coordinatorConfig : Layout CoordinatorConfig where
  Fields := Address × Address × UInt64 × UInt32 × UInt64 × UInt64 × UInt8
  codec := address.pair <| address.pair <| u64.pair <| u32.pair <| u64.pair <| u64.pair u8
  fields r :=
    (r.admin, r.authority, r.feePerWord, r.maxNumWords, r.requestCounter, r.subscriptionCounter, r.bump)
  ofFields := fun (admin, authority, feePerWord, maxNumWords, requestCounter, subscriptionCounter, bump) =>
    .ok { admin, authority, feePerWord, maxNumWords, requestCounter, subscriptionCounter, bump }

def subscription : Layout Subscription where
  Fields := UInt64 × Address × UInt64 × UInt64 × UInt32 × UInt8
  codec := u64.pair <| address.pair <| u64.pair <| u64.pair <| u32.pair u8
  fields r := (r.id, r.owner, r.balance, r.reqCount, r.consumerCount, r.bump)
  ofFields := fun (id, owner, balance, reqCount, consumerCount, bump) =>
    .ok { id, owner, balance, reqCount, consumerCount, bump }

def consumerRegistration : Layout ConsumerRegistration where
  Fields := UInt64 × Address × UInt64 × UInt8
  codec := u64.pair <| address.pair <| u64.pair u8
  fields r := (r.subscriptionId, r.programId, r.nonce, r.bump)
  ofFields := fun (subscriptionId, programId, nonce, bump) => .ok { subscriptionId, programId, nonce, bump }

def legacyRequest : Layout LegacyRequest where
  Fields := UInt64 × Address × Block 32 × UInt64 × Address × UInt8 × Block 32 × UInt64 × UInt8
  codec := u64.pair <| address.pair <| (block 32).pair <| u64.pair <| address.pair <| u8.pair <|
    (block 32).pair <| u64.pair u8
  fields r :=
    (r.requestId, r.requester, r.seed, r.requestSlot, r.callbackProgram, r.status.code, r.randomness,
      r.fulfilledSlot, r.bump)
  ofFields := fun
    (requestId, requester, seed, requestSlot, callbackProgram, code, randomness, fulfilledSlot, bump) =>
      (readStatus .legacyRequest code).map fun status =>
        { requestId, requester, seed, requestSlot, callbackProgram, status, randomness, fulfilledSlot, bump }

def wordsRequest : Layout WordsRequest where
  Fields := UInt64 × UInt64 × Address × Address × UInt32 × Block 32 × UInt64 × UInt32 × UInt8 × Block 32 ×
    UInt64 × UInt8 × Address × Address × Address × Address × UInt8 × UInt8
  codec := u64.pair <| u64.pair <| address.pair <| address.pair <| u32.pair <| (block 32).pair <|
    u64.pair <| u32.pair <| u8.pair <| (block 32).pair <| u64.pair <| u8.pair <| address.pair <|
    address.pair <| address.pair <| address.pair <| u8.pair u8
  fields r :=
    (r.requestId, r.subscriptionId, r.consumerProgram, r.requester, r.numWords, r.seed, r.requestSlot,
      r.callbackComputeLimit, r.status.code, r.randomness, r.fulfilledSlot, r.numCallbackAccounts,
      r.callbackAccounts[0], r.callbackAccounts[1], r.callbackAccounts[2], r.callbackAccounts[3],
      r.callbackWritableBitmap, r.bump)
  ofFields := fun
    (requestId, subscriptionId, consumerProgram, requester, numWords, seed, requestSlot,
        callbackComputeLimit, code, randomness, fulfilledSlot, numCallbackAccounts, a, b, c, d,
        callbackWritableBitmap, bump) => do
      let status ← readStatus .wordsRequest code
      if numCallbackAccounts.toNat > maxCallbackAccounts then
        .error (.invalidCallbackCount .wordsRequest numCallbackAccounts maxCallbackAccounts)
      else
        .ok { requestId, subscriptionId, consumerProgram, requester, numWords, seed, requestSlot
              callbackComputeLimit, status, randomness, fulfilledSlot, numCallbackAccounts
              callbackAccounts := #v[a, b, c, d], callbackWritableBitmap, bump }

def compressedRequest : Layout CompressedRequest where
  Fields := UInt64 × Address × Block 32 × UInt64 × UInt8 × Block 32
  codec := u64.pair <| address.pair <| (block 32).pair <| u64.pair <| u8.pair (block 32)
  fields r := (r.requestId, r.requester, r.seed, r.requestSlot, r.status.code, r.randomness)
  ofFields := fun (requestId, requester, seed, requestSlot, code, randomness) =>
    (readStatus .compressedRequest code).map fun status =>
      { requestId, requester, seed, requestSlot, status, randomness }

end Layout

namespace Kind

def layout : (k : Kind) → Layout k.Record
  | legacyConfig => Layout.legacyConfig
  | coordinatorConfig => Layout.coordinatorConfig
  | subscription => Layout.subscription
  | consumerRegistration => Layout.consumerRegistration
  | legacyRequest => Layout.legacyRequest
  | wordsRequest => Layout.wordsRequest
  | compressedRequest => Layout.compressedRequest

/-- Bytes behind the discriminator. -/
def bodySize (k : Kind) : Nat := k.layout.codec.width

def size (k : Kind) : Nat := 8 + k.bodySize

/-- The record without its discriminator. -/
def encodeBody (k : Kind) (r : k.Record) : Bytes := k.layout.codec.encode (k.layout.fields r)

def encode (k : Kind) (r : k.Record) : Bytes := k.discriminator.bytes ++ k.encodeBody r

/-- Reads a record from the start of an account's data; what follows it does not matter. -/
def decode (k : Kind) (data : Bytes) : Except DecodeError k.Record :=
  if h : 8 + k.bodySize ≤ data.length then
    let d := data.slice 0 8 (by omega)
    if d = k.discriminator then k.layout.ofFields (k.layout.codec.read (data.slice 8 k.bodySize h))
    else .error (.wrongDiscriminator k k.discriminator d)
  else .error (.tooShort k k.size data.length)

end Kind

end Randomness
