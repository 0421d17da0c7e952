import Randomness.Instruction

/-!
Instructions on requests that live as leaves of a state tree instead of accounts. The trees' own
accounts are appended as the caller gives them; indices in the data count within that tail.
-/

namespace Randomness.Compressed

open Instruction AccountMeta

variable [Crypto]

structure ValidityProof where
  a : Block 32
  b : Block 64
  c : Block 32
  deriving DecidableEq

namespace ValidityProof

def zero : ValidityProof := ⟨Block.zero 32, Block.zero 64, Block.zero 32⟩

def encode (p : ValidityProof) : Bytes := p.a.bytes ++ p.b.bytes ++ p.c.bytes

end ValidityProof

structure NewAddress where
  seed : Block 32
  queueIndex : UInt8
  treeIndex : UInt8
  rootIndex : UInt16
  deriving DecidableEq

structure QueueIndex where
  queueId : UInt8
  index : UInt16
  deriving DecidableEq

def QueueIndex.codec : Codec (UInt8 × UInt16) := Codec.u8.pair Codec.u16

/-- The place of a leaf. -/
structure MerkleContext where
  treeIndex : UInt8
  queueIndex : UInt8
  leafIndex : UInt32
  /-- Only for trees whose leaves are queued. -/
  queue : Option QueueIndex
  deriving DecidableEq

structure RequestOrder where
  seed : Block 32
  proof : ValidityProof
  newAddress : NewAddress
  outputTreeIndex : UInt8
  dataHash : Block 32
  address : Block 32
  remainingAccounts : List AccountMeta

structure FulfillOrder where
  requestId : UInt64
  randomness : Block 32
  proof : ValidityProof
  context : MerkleContext
  rootIndex : UInt16
  /-- The leaf as it is now. -/
  current : CompressedRequest
  inputDataHash : Block 32
  address : Block 32
  outputTreeIndex : UInt8
  outputDataHash : Block 32
  remainingAccounts : List AccountMeta

def config (program : Address) : Except BuildError Address := addressOf program (.config .legacy)

def requestRandomness (program requester treasury : Address) (order : RequestOrder) :
    Except BuildError Instruction := do
  return {
    program
    accounts := [writableSigner requester, writable (← config program), writable treasury,
      readonly systemProgram] ++ order.remainingAccounts
    data := Discriminator.Instruction.requestRandomnessCompressed.bytes ++ order.seed.bytes ++
      order.proof.encode ++ order.newAddress.seed.bytes ++ Codec.u8.encode order.newAddress.queueIndex ++
      Codec.u8.encode order.newAddress.treeIndex ++ Codec.u16.encode order.newAddress.rootIndex ++
      Codec.u8.encode order.outputTreeIndex ++ order.dataHash.bytes ++ order.address.bytes }

def fulfillRandomness (program authority : Address) (order : FulfillOrder) :
    Except BuildError Instruction := do
  return {
    program
    accounts := [writableSigner authority, readonly (← config program), readonly instructionsAccount] ++
      order.remainingAccounts
    data := Discriminator.Instruction.fulfillRandomnessCompressed.bytes ++
      Codec.u64.encode order.requestId ++ order.randomness.bytes ++ order.proof.encode ++
      Codec.u8.encode order.context.treeIndex ++ Codec.u8.encode order.context.queueIndex ++
      Codec.u32.encode order.context.leafIndex ++
      QueueIndex.codec.encodeOption (order.context.queue.map fun q => (q.queueId, q.index)) ++
      Codec.u16.encode order.rootIndex ++ Kind.compressedRequest.encodeBody order.current ++
      order.inputDataHash.bytes ++ order.address.bytes ++ Codec.u8.encode order.outputTreeIndex ++
      order.outputDataHash.bytes }

end Randomness.Compressed
