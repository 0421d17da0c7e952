import Mathlib.Data.List.Infix
import Randomness.Proofs.Decoding
import Randomness.Proofs.Format
import Randomness.Proofs.Operation

/-!
Payloads of instructions whose width varies: which arguments are encoded in the data of an instruction can be read off
these data, and no other arguments give the same data or the start of them.
-/

namespace Randomness

open Codec Format

/-- The data of a builder's instructions tell the arguments that are encoded in them. They are read from exactly these
data, to the last byte; and data that start other data of the builder are the same, with the same arguments. -/
structure Instruction.Decodable {Call Args : Type} (build : Call → Except BuildError Instruction)
    (encoded : Call → Args) (read? : Bytes → Option Args) : Prop where
  reads : ∀ {c i}, build c = .ok i → ∀ data, read? data = some (encoded c) ↔ data = i.data
  apart : ∀ {c i d j}, build c = .ok i → build d = .ok j → i.data <+: j.data → encoded c = encoded d ∧ i.data = j.data

theorem Format.decodable {Call Args : Type} (f : Format Args) {build : Call → Except BuildError Instruction}
    {encoded : Call → Args} (written : ∀ {c i}, build c = .ok i → i.data = f.write (encoded c)) :
    Instruction.Decodable build encoded f.read? where
  reads made data := by rw [f.read?_eq_some_iff, written made]
  apart made made' start := by
    rw [written made, written made'] at start ⊢
    have same := f.prefix_write_iff.1 start
    exact ⟨same, congrArg f.write same⟩

theorem RequestStatus.ofCode?_eq_some_iff {n : UInt8} {s : RequestStatus} : ofCode? n = some s ↔ n = s.code := by
  constructor
  · intro h
    simp only [ofCode?] at h
    grind [RequestStatus.code]
  · rintro rfl
    exact ofCode?_code s

namespace Legacy

/-- Data of an update: four optional fields. -/
def ConfigUpdate.payload : Format ConfigUpdate :=
  ((address.format.optional.pair <| u64.format.optional.pair <| address.format.optional.pair <|
    address.format.optional).of (fun u => (u.authority, u.fee, u.treasury, u.admin))
      (fun (authority, fee, treasury, admin) => some ⟨authority, fee, treasury, admin⟩)
      (by
        rintro ⟨authority, fee, treasury, admin⟩ ⟨authority', fee', treasury', admin'⟩
        simp)).behind Discriminator.Instruction.updateConfig.bytes

theorem data_updateConfig [Crypto] {program admin : Address} {update : ConfigUpdate} {i : Instruction}
    (made : updateConfig program admin update = .ok i) : i.data = ConfigUpdate.payload.write update := by
  obtain ⟨_, _, made⟩ := bind_eq_ok.1 made
  obtain ⟨_, _, made⟩ := bind_eq_ok.1 made
  obtain ⟨_, _, made⟩ := bind_eq_ok.1 made
  cases made
  simp only [← write_optional_format, List.append_assoc]
  rfl

end Legacy

namespace Subscriptions

/-- Data of an update: four optional fields. -/
def ConfigUpdate.payload : Format ConfigUpdate :=
  ((address.format.optional.pair <| u64.format.optional.pair <| u32.format.optional.pair <|
    address.format.optional).of (fun u => (u.authority, u.feePerWord, u.maxNumWords, u.admin))
      (fun (authority, feePerWord, maxNumWords, admin) => some ⟨authority, feePerWord, maxNumWords, admin⟩)
      (by
        rintro ⟨authority, fee, words, admin⟩ ⟨authority', fee', words', admin'⟩
        simp)).behind Discriminator.Instruction.updateConfig.bytes

theorem data_updateConfig [Crypto] {program admin : Address} {update : ConfigUpdate} {i : Instruction}
    (made : updateConfig program admin update = .ok i) : i.data = ConfigUpdate.payload.write update := by
  obtain ⟨_, _, made⟩ := bind_eq_ok.1 made
  obtain ⟨_, _, made⟩ := bind_eq_ok.1 made
  obtain ⟨_, made⟩ := Instruction.outOfRange_eq_ok.1 made
  obtain ⟨_, _, made⟩ := bind_eq_ok.1 made
  cases made
  simp only [← write_optional_format, List.append_assoc]
  rfl

end Subscriptions

namespace Compressed

def ValidityProof.format : Format ValidityProof :=
  ((Codec.block 32).pair ((Codec.block 64).pair (Codec.block 32))).format.of (fun p => (p.a, p.b, p.c))
    (fun (a, b, c) => some ⟨a, b, c⟩) (by
      rintro ⟨a, b, c⟩ ⟨a', b', c'⟩
      simp)

def NewAddress.format : Format NewAddress :=
  ((Codec.block 32).pair <| u8.pair <| u8.pair u16).format.of
    (fun a => (a.seed, a.queueIndex, a.treeIndex, a.rootIndex))
    (fun (seed, queueIndex, treeIndex, rootIndex) => some ⟨seed, queueIndex, treeIndex, rootIndex⟩) (by
      rintro ⟨seed, queueIndex, treeIndex, rootIndex⟩ ⟨seed', queueIndex', treeIndex', rootIndex'⟩
      simp)

theorem NewAddress.write_format (a : NewAddress) :
    format.write a =
      a.seed.bytes ++ u8.encode a.queueIndex ++ u8.encode a.treeIndex ++ u16.encode a.rootIndex := by
  simp only [List.append_assoc]
  rfl

def QueueIndex.format : Format QueueIndex :=
  QueueIndex.codec.format.of (fun q => (q.queueId, q.index)) (fun (queueId, index) => some ⟨queueId, index⟩) (by
    rintro ⟨queueId, index⟩ ⟨queueId', index'⟩
    simp)

theorem ValidityProof.write_format (p : ValidityProof) : format.write p = p.encode :=
  (List.append_assoc ..).symm

theorem QueueIndex.write_optional_format (queue : Option QueueIndex) :
    format.optional.write queue = codec.encodeOption (queue.map fun q => (q.queueId, q.index)) := by
  cases queue <;> rfl

/-- The queue's place stands behind the numbers of fixed width, if there is one. -/
def MerkleContext.format : Format MerkleContext :=
  ((u8.pair (u8.pair u32)).format.pair QueueIndex.format.optional).of
    (fun c => ((c.treeIndex, c.queueIndex, c.leafIndex), c.queue))
    (fun ((treeIndex, queueIndex, leafIndex), queue) => some ⟨treeIndex, queueIndex, leafIndex, queue⟩) (by
      rintro ⟨⟨treeIndex, queueIndex, leafIndex⟩, queue⟩ ⟨treeIndex', queueIndex', leafIndex', queue'⟩
      simp [and_assoc])

/-- The body of a record, with any status. -/
def recordFormat : Format CompressedRequest :=
  Layout.compressedRequest.codec.format.of Layout.compressedRequest.fields
    (fun (requestId, requester, seed, requestSlot, code, randomness) =>
      (RequestStatus.ofCode? code).map fun status =>
        ⟨requestId, requester, seed, requestSlot, status, randomness⟩) (by
      rintro ⟨requestId, requester, seed, requestSlot, code, randomness⟩ ⟨id', requester', seed', slot', status', _⟩
      simp only [Option.map_eq_some_iff, RequestStatus.ofCode?_eq_some_iff, Layout.compressedRequest]
      constructor
      · rintro ⟨status, rfl, made⟩
        cases made
        rfl
      · intro same
        cases same
        exact ⟨_, rfl, rfl⟩)

/-- What is encoded of an order for a request: everything but the accounts. -/
def RequestOrder.encoded (o : RequestOrder) :
    Block 32 × ValidityProof × NewAddress × UInt8 × Block 32 × Block 32 :=
  (o.seed, o.proof, o.newAddress, o.outputTreeIndex, o.dataHash, o.address)

/-- Data of a request. Their fields all have fixed widths. -/
def RequestOrder.payload : Format (Block 32 × ValidityProof × NewAddress × UInt8 × Block 32 × Block 32) :=
  ((Codec.block 32).format.pair <| ValidityProof.format.pair <| NewAddress.format.pair <|
    (u8.pair <| (Codec.block 32).pair (Codec.block 32)).format).behind
      Discriminator.Instruction.requestRandomnessCompressed.bytes

theorem data_requestRandomness [Crypto] {program requester treasury : Address} {order : RequestOrder}
    {i : Instruction} (made : requestRandomness program requester treasury order = .ok i) :
    i.data = RequestOrder.payload.write order.encoded := by
  obtain ⟨_, _, made⟩ := bind_eq_ok.1 made
  cases made
  -- The format brackets the new address, whose seed has no known bytes: the two sides agree only up to brackets.
  simp only [RequestOrder.payload, write_behind, write_pair, ValidityProof.write_format, NewAddress.write_format,
    List.append_assoc]
  rfl

/-- What is encoded of an order for a fulfillment: everything but the accounts. -/
def FulfillOrder.encoded (o : FulfillOrder) :
    UInt64 × Block 32 × ValidityProof × MerkleContext × UInt16 × CompressedRequest × Block 32 × Block 32 × UInt8 ×
      Block 32 :=
  (o.requestId, o.randomness, o.proof, o.context, o.rootIndex, o.current, o.inputDataHash, o.address,
    o.outputTreeIndex, o.outputDataHash)

/-- Data of a fulfillment. What stands behind the leaf's place is moved by the queue's place, if there is one. -/
def FulfillOrder.payload :
    Format (UInt64 × Block 32 × ValidityProof × MerkleContext × UInt16 × CompressedRequest × Block 32 × Block 32 ×
      UInt8 × Block 32) :=
  (u64.format.pair <| (Codec.block 32).format.pair <| ValidityProof.format.pair <| MerkleContext.format.pair <|
    u16.format.pair <| recordFormat.pair <|
    ((Codec.block 32).pair <| (Codec.block 32).pair <| u8.pair (Codec.block 32)).format).behind
      Discriminator.Instruction.fulfillRandomnessCompressed.bytes

theorem data_fulfillRandomness [Crypto] {program authority : Address} {order : FulfillOrder} {i : Instruction}
    (made : fulfillRandomness program authority order = .ok i) :
    i.data = FulfillOrder.payload.write order.encoded := by
  obtain ⟨_, _, made⟩ := bind_eq_ok.1 made
  cases made
  simp only [← ValidityProof.write_format, ← QueueIndex.write_optional_format, List.append_assoc]
  rfl

theorem length_requestRandomness [Crypto] {program requester treasury : Address} {order : RequestOrder}
    {i : Instruction} (made : requestRandomness program requester treasury order = .ok i) : i.data.length = 269 := by
  obtain ⟨_, _, made⟩ := bind_eq_ok.1 made
  cases made
  simp only [ValidityProof.encode, List.length_append, length_encode, Block.length_eq]
  rfl

end Compressed

/-- Which optional fields an update or a leaf's place has, and every encoded argument, can be read off the data that a
call makes, though no lengths stand between them. Data of a request for a leaf all have one length. -/
theorem Instruction.payloads_tell_arguments [Crypto] :
    Decodable (fun (program, admin, update) => Legacy.updateConfig program admin update)
      (fun (_, _, update) => update) Legacy.ConfigUpdate.payload.read? ∧
    Decodable (fun (program, admin, update) => Subscriptions.updateConfig program admin update)
      (fun (_, _, update) => update) Subscriptions.ConfigUpdate.payload.read? ∧
    Decodable (fun (program, authority, order) => Compressed.fulfillRandomness program authority order)
      (fun (_, _, order) => order.encoded) Compressed.FulfillOrder.payload.read? ∧
    Decodable
      (fun (program, requester, treasury, order) => Compressed.requestRandomness program requester treasury order)
      (fun (_, _, _, order) => order.encoded) Compressed.RequestOrder.payload.read? ∧
    ∀ program requester treasury order i,
      Compressed.requestRandomness program requester treasury order = .ok i → i.data.length = 269 :=
  ⟨Legacy.ConfigUpdate.payload.decodable Legacy.data_updateConfig,
    Subscriptions.ConfigUpdate.payload.decodable Subscriptions.data_updateConfig,
    Compressed.FulfillOrder.payload.decodable Compressed.data_fulfillRandomness,
    Compressed.RequestOrder.payload.decodable Compressed.data_requestRandomness,
    fun _ _ _ _ _ => Compressed.length_requestRandomness⟩

namespace Recorded

/-- An order for a leaf that a queue may hold. -/
def leafOrder (queue : Option Compressed.QueueIndex) : Compressed.FulfillOrder where
  requestId := 7
  randomness := repeated 9
  proof := Compressed.ValidityProof.zero
  context := ⟨0, 1, 5, queue⟩
  rootIndex := 2
  current :=
    { requestId := 7, requester := consumer, seed := repeated 4, requestSlot := 101,
      status := .pending, randomness := Block.zero 32 }
  inputDataHash := repeated 1
  address := repeated 2
  outputTreeIndex := 0
  outputDataHash := repeated 3
  remainingAccounts := []

/-- Updates of a config that exists: to another authority, or to another fee. And fulfillments of a leaf, in a queue or
in none: all that stands behind the queue's place is moved, and read from where it is then. -/
theorem updates_apart :
    let _ := crypto
    (∃ i j, Legacy.updateConfig program consumer ⟨some consumer, none, none, none⟩ = .ok i ∧
      Legacy.updateConfig program consumer ⟨none, some 5, none, none⟩ = .ok j ∧
      Legacy.ConfigUpdate.payload.read? i.data = some ⟨some consumer, none, none, none⟩ ∧
      ¬ j.data <+: i.data) ∧
    ∃ i j, Compressed.fulfillRandomness program consumer (leafOrder (some ⟨1, 2⟩)) = .ok i ∧
      Compressed.fulfillRandomness program consumer (leafOrder none) = .ok j ∧
      Compressed.FulfillOrder.payload.read? i.data = some (leafOrder (some ⟨1, 2⟩)).encoded ∧
      Compressed.FulfillOrder.payload.read? j.data = some (leafOrder none).encoded ∧
      ¬ j.data <+: i.data ∧ ¬ i.data <+: j.data := by
  intro _
  have derived : Legacy.config program = .ok addresses[0].2 := by
    rw [Legacy.config, Instruction.addressOf_eq_ok]
    exact ⟨255, address_of addresses[0] (List.getElem_mem _)⟩
  have updated (u : Legacy.ConfigUpdate) (authority : Instruction.requireOptional "authority" u.authority = .ok ())
      (admin : Instruction.requireOptional "admin" u.admin = .ok ()) :
      ∃ i, Legacy.updateConfig program consumer u = .ok i := by
    rw [Legacy.updateConfig, authority, admin, derived]
    exact ⟨_, rfl⟩
  have fulfilled (o : Compressed.FulfillOrder) : ∃ i, Compressed.fulfillRandomness program consumer o = .ok i := by
    have config : Compressed.config program = .ok addresses[0].2 := derived
    rw [Compressed.fulfillRandomness, config]
    exact ⟨_, rfl⟩
  obtain ⟨updates, _, fulfillments, _⟩ := Instruction.payloads_tell_arguments
  constructor
  · obtain ⟨i, hi⟩ := updated ⟨some consumer, none, none, none⟩ rfl rfl
    obtain ⟨j, hj⟩ := updated ⟨none, some 5, none, none⟩ rfl rfl
    refine ⟨i, j, hi, hj, (updates.reads (c := (program, consumer, _)) hi i.data).2 rfl, ?_⟩
    intro start
    obtain ⟨same, _⟩ := updates.apart (c := (program, consumer, _)) (d := (program, consumer, _)) hj hi start
    exact absurd same (by decide)
  · obtain ⟨i, hi⟩ := fulfilled (leafOrder (some ⟨1, 2⟩))
    obtain ⟨j, hj⟩ := fulfilled (leafOrder none)
    have other : (leafOrder none).encoded ≠ (leafOrder (some ⟨1, 2⟩)).encoded := by
      intro same
      have queues : (none : Option Compressed.QueueIndex) = some ⟨1, 2⟩ := congrArg (fun e => e.2.2.2.1.queue) same
      cases queues
    refine ⟨i, j, hi, hj, (fulfillments.reads (c := (program, consumer, _)) hi i.data).2 rfl,
      (fulfillments.reads (c := (program, consumer, _)) hj j.data).2 rfl, ?_, ?_⟩
    · intro start
      obtain ⟨same, _⟩ := fulfillments.apart (c := (program, consumer, _)) (d := (program, consumer, _)) hj hi start
      exact other same
    · intro start
      obtain ⟨same, _⟩ := fulfillments.apart (c := (program, consumer, _)) (d := (program, consumer, _)) hi hj start
      exact other same.symm

end Recorded

end Randomness
