import Mathlib.Data.Option.Basic
import Randomness.Proofs.Guards
import Randomness.Proofs.Matching

/-!
The coordinator's arms. Each does to the accounts what the registry's one of the same name does to the
records, if it reads its accounts and arguments off the instruction.
-/

namespace Randomness

open Instruction

namespace Coordinator

/-- The callback accounts that are stored are those of the order: only their signer flags are dropped. -/
theorem unsignedMetas_eq (metas : List AccountMeta) :
    callbackSlots (metas.map fun m => ⟨m.key, false, m.isWritable⟩) = callbackSlots metas ∧
      writableBitmap (metas.map fun m => ⟨m.key, false, m.isWritable⟩) = writableBitmap metas := by
  constructor
  · unfold callbackSlots
    congr 1
    funext j
    rw [List.getElem?_map]
    cases metas[j.val]? <;> rfl
  · unfold writableBitmap
    rw [List.foldr_map]

theorem require_of {p : Prop} [Decidable p] (h : p) (r : Refusal) : require p r = .ok () := if_pos h

end Coordinator

/-- What a transaction shows to its commands. -/
def Surroundings.scene [Crypto] (x : Surroundings) : Scene :=
  ⟨x.slot, x.signers, fun authority id randomness =>
    x.instructions.any (Coordinator.proves authority id randomness)⟩

/-- A command's result and an instruction's effect say the same. -/
def Says [Crypto] (keys : Set Address) (r : Registry.Result) (e : Effect) : Prop :=
  e.log = r.2 ∧ Fits keys e.accounts r.1

section

variable [Crypto] {keys : Set Address} {s : Accounts} {σ : Registry} {i : Instruction} {P : Address}
  {b c : UInt8}

open Coordinator

theorem initializeLegacy_agrees (hf : Fits keys s σ) (hi : i.program = P) (hP : P ∈ keys)
    {admin authority treasury config : Address} {fee : UInt64}
    (hconfig : (Site.legacyConfig P).address = .ok (config, b)) (k0 : key i 0 = .ok admin)
    (k1 : key i 1 = .ok authority) (k2 : key i 2 = .ok treasury) (k3 : key i 3 = .ok config)
    (a8 : argument Codec.u64 i 8 = .ok fee) :
    Agrees (Says keys) (σ.initializeLegacy P admin authority treasury fee)
      (Coordinator.initializeLegacy i s) := by
  subst hi
  have inside : (Site.legacyConfig i.program).Over keys := by simpa using hP
  have place := expect_self hconfig
  simp only [Coordinator.initializeLegacy, Registry.initializeLegacy, k0, k1, k2, k3, a8, place, ok_bind]
  refine (hf.create inside hconfig _).bind ?_
  intro _ _ held
  obtain ⟨rfl, _⟩ := held
  exact .done ⟨rfl, hf.store inside hconfig rfl⟩

theorem initializeSubscription_agrees (hf : Fits keys s σ) (hi : i.program = P) (hP : P ∈ keys)
    {admin authority config : Address} {feePerWord : UInt64} {maxNumWords : UInt32}
    (hconfig : (Site.coordinatorConfig P).address = .ok (config, b)) (k0 : key i 0 = .ok admin)
    (k1 : key i 1 = .ok authority) (k2 : key i 2 = .ok config)
    (a8 : argument Codec.u64 i 8 = .ok feePerWord) (a16 : argument Codec.u32 i 16 = .ok maxNumWords) :
    Agrees (Says keys) (σ.initializeSubscription P admin authority feePerWord maxNumWords)
      (Coordinator.initializeSubscription i s) := by
  subst hi
  have inside : (Site.coordinatorConfig i.program).Over keys := by simpa using hP
  have place := expect_self hconfig
  simp only [Coordinator.initializeSubscription, Registry.initializeSubscription, k0, k1, k2, a8, a16, place,
    ok_bind]
  refine (hf.create inside hconfig _).bind ?_
  intro _ _ held
  obtain ⟨rfl, _⟩ := held
  exact .done ⟨rfl, hf.store inside hconfig rfl⟩

theorem requestRandomness_agrees (hf : Fits keys s σ) (hi : i.program = P) (hP : P ∈ keys) (x : Surroundings)
    {callback : Option Address} {requester config request : Address} {id : UInt64} {seed : Block 32}
    (hconfig : (Site.legacyConfig P).address = .ok (config, b))
    (hrequest : (Site.legacyRequest P id).address = .ok (request, c)) (k0 : key i 0 = .ok requester)
    (k1 : key i 1 = .ok config) (k2 : key i 2 = .ok request)
    (k4 : ∀ program ∈ callback, key i 4 = .ok program)
    (a8 : argument (Codec.block 32) i 8 = .ok seed) :
    Agrees (Says keys) (σ.requestRandomness x.scene P requester callback id seed.bytes)
      (Coordinator.requestRandomness callback.isSome x i s) := by
  subst hi
  have overConfig : (Site.legacyConfig i.program).Over keys := by simpa using hP
  have overRequest (n : UInt64) : (Site.legacyRequest i.program n).Over keys := by simpa using hP
  have named (f : Address → Outcome Effect) :
      (if callback.isSome then key i 4 >>= f else f Address.zero) = f (callback.getD Address.zero) := by
    cases callback with
    | none => rfl
    | some program => rw [Option.isSome_some, if_pos rfl, k4 program rfl]; rfl
  simp only [Coordinator.requestRandomness, Registry.requestRandomness, Block.ofBytes?_bytes,
    Option.bind_eq_bind, Option.bind_some, k0, k1, k2, a8, ok_bind]
  refine (hf.load overConfig hconfig).bind ?_
  intro _ old held
  obtain ⟨rfl, _, own⟩ := held
  have same : old.requestCounter = id ↔
      Site.legacyRequest i.program old.requestCounter = .legacyRequest i.program id := by simp
  refine (hf.distinct.expect (overRequest id) (overRequest _) hrequest same).bind ?_
  intro _ _ held
  obtain ⟨rfl, rfl⟩ := held
  rw [named]
  refine (hf.create (overRequest _) hrequest _).bind ?_
  intro _ _ held
  obtain ⟨rfl, _⟩ := held
  refine (Agrees.toOption _).bind ?_
  intro counter _ same
  subst same
  have stored := hf.store (overRequest _) hrequest (r := {
    requestId := old.requestCounter, requester, seed, requestSlot := x.slot
    callbackProgram := callback.getD Address.zero, status := .pending, randomness := Block.zero 32
    fulfilledSlot := 0, bump := (Site.legacyRequest i.program old.requestCounter).bump }) ⟨rfl, rfl⟩
  exact .done ⟨rfl, stored.store overConfig hconfig own⟩

theorem fulfillRandomness_agrees (hf : Fits keys s σ) (hi : i.program = P) (hP : P ∈ keys) (x : Surroundings)
    {config request : Address} {id : UInt64} {randomness : Block 32}
    (hconfig : (Site.legacyConfig P).address = .ok (config, b))
    (hrequest : (Site.legacyRequest P id).address = .ok (request, c))
    (k1 : key i 1 = .ok config) (k2 : key i 2 = .ok request) (a8 : argument Codec.u64 i 8 = .ok id)
    (a16 : argument (Codec.block 32) i 16 = .ok randomness) :
    Agrees (Says keys) (σ.fulfillRandomness x.scene P id randomness)
      (Coordinator.fulfillRandomness x i s) := by
  subst hi
  have overConfig : (Site.legacyConfig i.program).Over keys := by simpa using hP
  have overRequest : (Site.legacyRequest i.program id).Over keys := by simpa using hP
  simp only [Coordinator.fulfillRandomness, Registry.fulfillRandomness, requireProof_eq, k1, k2, a8, a16, ok_bind]
  refine (hf.load overConfig hconfig).bind ?_
  intro old _ held
  obtain ⟨rfl, _, _⟩ := held
  refine (Agrees.require Iff.rfl _).bind ?_
  intro _ _ _
  refine (hf.load overRequest hrequest).bind ?_
  intro pending _ held
  obtain ⟨rfl, _, own⟩ := held
  refine (Agrees.require Iff.rfl _).bind ?_
  intro _ _ _
  exact .done ⟨rfl, hf.store overRequest hrequest own⟩

theorem consumeRandomness_agrees (hf : Fits keys s σ) (hi : i.program = P) (hP : P ∈ keys)
    {requester request : Address} {id : UInt64}
    (hrequest : (Site.legacyRequest P id).address = .ok (request, c))
    (k0 : key i 0 = .ok requester) (k1 : key i 1 = .ok request) :
    Agrees (Says keys) (σ.consumeRandomness P requester id)
      (Coordinator.consumeRandomness i s) := by
  subst hi
  have inside : (Site.legacyRequest i.program id).Over keys := by simpa using hP
  simp only [Coordinator.consumeRandomness, Registry.consumeRandomness, k0, k1, ok_bind]
  refine (hf.load inside hrequest).bind ?_
  intro fulfilled _ held
  obtain ⟨rfl, _, own⟩ := held
  refine (Agrees.require Iff.rfl _).bind ?_
  intro _ _ _
  refine (Agrees.require Iff.rfl _).bind ?_
  intro _ _ _
  exact .done ⟨rfl, hf.store inside hrequest own⟩

theorem closeRequest_agrees (hf : Fits keys s σ) (hi : i.program = P) (hP : P ∈ keys)
    {request : Address} {id : UInt64}
    (hrequest : (Site.legacyRequest P id).address = .ok (request, c)) (k1 : key i 1 = .ok request) :
    Agrees (Says keys) (σ.closeRequest P id) (Coordinator.closeRequest i s) := by
  subst hi
  have inside : (Site.legacyRequest i.program id).Over keys := by simpa using hP
  simp only [Coordinator.closeRequest, Registry.closeRequest, k1, ok_bind]
  refine (hf.load inside hrequest).bind ?_
  intro consumed _ held
  obtain ⟨rfl, _, _⟩ := held
  refine (Agrees.require Iff.rfl _).bind ?_
  intro _ _ _
  exact .done ⟨rfl, hf.erase inside hrequest⟩

theorem createSubscription_agrees (hf : Fits keys s σ) (hi : i.program = P) (hP : P ∈ keys)
    {owner config subscription : Address} {id : UInt64}
    (hconfig : (Site.coordinatorConfig P).address = .ok (config, b))
    (hsub : (Site.subscription P id).address = .ok (subscription, c)) (k0 : key i 0 = .ok owner)
    (k1 : key i 1 = .ok config) (k2 : key i 2 = .ok subscription) :
    Agrees (Says keys) (σ.createSubscription P owner id) (Coordinator.createSubscription i s) := by
  subst hi
  have overConfig : (Site.coordinatorConfig i.program).Over keys := by simpa using hP
  have overSub (n : UInt64) : (Site.subscription i.program n).Over keys := by simpa using hP
  simp only [Coordinator.createSubscription, Registry.createSubscription, k0, k1, k2, ok_bind]
  refine (hf.load overConfig hconfig).bind ?_
  intro _ old held
  obtain ⟨rfl, _, own⟩ := held
  have same : old.subscriptionCounter = id ↔
      Site.subscription i.program old.subscriptionCounter = .subscription i.program id := by simp
  refine (hf.distinct.expect (overSub id) (overSub _) hsub same).bind ?_
  intro _ _ held
  obtain ⟨rfl, rfl⟩ := held
  refine (hf.create (overSub _) hsub _).bind ?_
  intro _ _ held
  obtain ⟨rfl, _⟩ := held
  refine (Agrees.toOption _).bind ?_
  intro counter _ same
  subst same
  have stored := hf.store (overSub _) hsub (r := {
    id := old.subscriptionCounter, owner, balance := 0, reqCount := 0, consumerCount := 0
    bump := (Site.subscription i.program old.subscriptionCounter).bump }) ⟨rfl, rfl⟩
  exact .done ⟨rfl, stored.store overConfig hconfig own⟩

theorem fundSubscription_agrees (hf : Fits keys s σ) (hi : i.program = P) (hP : P ∈ keys)
    {subscription : Address} {id amount : UInt64}
    (hsub : (Site.subscription P id).address = .ok (subscription, c))
    (k1 : key i 1 = .ok subscription) (a16 : argument Codec.u64 i 16 = .ok amount) :
    Agrees (Says keys) (σ.fundSubscription P id amount) (Coordinator.fundSubscription i s) := by
  subst hi
  have inside : (Site.subscription i.program id).Over keys := by simpa using hP
  simp only [Coordinator.fundSubscription, Registry.fundSubscription, k1, a16, ok_bind]
  refine (hf.load inside hsub).bind ?_
  intro _ sub held
  obtain ⟨rfl, _, own⟩ := held
  refine (Agrees.require Iff.rfl _).bind ?_
  intro _ _ _
  exact .done ⟨rfl, hf.store inside hsub own⟩

theorem addConsumer_agrees (hf : Fits keys s σ) (hi : i.program = P) (hP : P ∈ keys)
    {owner consumer subscription registration : Address} {id : UInt64} (hconsumer : consumer ∈ keys)
    (hsub : (Site.subscription P id).address = .ok (subscription, b))
    (hreg : (Site.registration P id consumer).address = .ok (registration, c))
    (k0 : key i 0 = .ok owner) (k1 : key i 1 = .ok subscription) (k2 : key i 2 = .ok consumer)
    (k3 : key i 3 = .ok registration) :
    Agrees (Says keys) (σ.addConsumer P owner id consumer) (Coordinator.addConsumer i s) := by
  subst hi
  have overSub : (Site.subscription i.program id).Over keys := by simpa using hP
  have overReg : (Site.registration i.program id consumer).Over keys := by simpa using ⟨hP, hconsumer⟩
  simp only [Coordinator.addConsumer, Registry.addConsumer, k0, k1, k2, k3, ok_bind]
  refine (hf.load overSub hsub).bind ?_
  intro _ sub held
  obtain ⟨rfl, _, own⟩ := held
  refine (Agrees.require Iff.rfl _).bind ?_
  intro _ _ _
  have named : sub.id = id := own.1
  have place := expect_self hreg
  simp only [named, place, ok_bind]
  refine (hf.create overReg hreg _).bind ?_
  intro _ _ held
  obtain ⟨rfl, _⟩ := held
  refine (Agrees.toOption _).bind ?_
  intro count _ same
  subst same
  have stored := hf.store overReg hreg (r := {
    subscriptionId := id, programId := consumer, nonce := 0
    bump := (Site.registration i.program id consumer).bump }) ⟨rfl, rfl, rfl⟩
  exact .done ⟨rfl, stored.store overSub hsub ⟨rfl, own.2⟩⟩

theorem removeConsumer_agrees (hf : Fits keys s σ) (hi : i.program = P) (hP : P ∈ keys)
    {owner consumer subscription registration : Address} {id : UInt64} (hconsumer : consumer ∈ keys)
    (hsub : (Site.subscription P id).address = .ok (subscription, b))
    (hreg : (Site.registration P id consumer).address = .ok (registration, c))
    (k0 : key i 0 = .ok owner) (k1 : key i 1 = .ok subscription) (k3 : key i 3 = .ok registration) :
    Agrees (Says keys) (σ.removeConsumer P owner id consumer) (Coordinator.removeConsumer i s) := by
  subst hi
  have overSub : (Site.subscription i.program id).Over keys := by simpa using hP
  have overReg : (Site.registration i.program id consumer).Over keys := by simpa using ⟨hP, hconsumer⟩
  simp only [Coordinator.removeConsumer, Registry.removeConsumer, k0, k1, k3, ok_bind]
  refine (hf.load overSub hsub).bind ?_
  intro _ sub held
  obtain ⟨rfl, _, own⟩ := held
  refine (Agrees.require Iff.rfl _).bind ?_
  intro _ _ _
  refine (hf.load overReg hreg).bind ?_
  intro _ _ _
  refine (Agrees.toOption _).bind ?_
  intro count _ same
  subst same
  exact .done ⟨rfl, (hf.erase overReg hreg).store overSub hsub own⟩

theorem cancelSubscription_agrees (hf : Fits keys s σ) (hi : i.program = P) (hP : P ∈ keys)
    {owner subscription : Address} {id : UInt64}
    (hsub : (Site.subscription P id).address = .ok (subscription, b)) (k0 : key i 0 = .ok owner)
    (k1 : key i 1 = .ok subscription) :
    Agrees (Says keys) (σ.cancelSubscription P owner id) (Coordinator.cancelSubscription i s) := by
  subst hi
  have inside : (Site.subscription i.program id).Over keys := by simpa using hP
  simp only [Coordinator.cancelSubscription, Registry.cancelSubscription, k0, k1, ok_bind]
  refine (hf.load inside hsub).bind ?_
  intro _ sub held
  obtain ⟨rfl, _, _⟩ := held
  refine (Agrees.require Iff.rfl _).bind ?_
  intro _ _ _
  refine (Agrees.require Iff.rfl _).bind ?_
  intro _ _ _
  exact .done ⟨rfl, hf.erase inside hsub⟩

theorem fulfillRandomWords_agrees (hf : Fits keys s σ) (hi : i.program = P) (hP : P ∈ keys) (x : Surroundings)
    {config request : Address} {id : UInt64} {randomness : Block 32}
    (hconfig : (Site.coordinatorConfig P).address = .ok (config, b))
    (hrequest : (Site.wordsRequest P id).address = .ok (request, c))
    (k1 : key i 1 = .ok config) (k2 : key i 2 = .ok request) (a8 : argument Codec.u64 i 8 = .ok id)
    (a16 : argument (Codec.block 32) i 16 = .ok randomness) :
    Agrees (Says keys) (σ.fulfillRandomWords x.scene P id randomness)
      (Coordinator.fulfillRandomWords x i s) := by
  subst hi
  have overConfig : (Site.coordinatorConfig i.program).Over keys := by simpa using hP
  have overRequest : (Site.wordsRequest i.program id).Over keys := by simpa using hP
  simp only [Coordinator.fulfillRandomWords, Registry.fulfillRandomWords, requireProof_eq, k1, k2, a8, a16, ok_bind]
  refine (hf.load overConfig hconfig).bind ?_
  intro _ old held
  obtain ⟨rfl, _, _⟩ := held
  refine (Agrees.require Iff.rfl _).bind ?_
  intro _ _ _
  refine (hf.load overRequest hrequest).bind ?_
  intro _ pending held
  obtain ⟨rfl, _, _⟩ := held
  refine (Agrees.require Iff.rfl _).bind ?_
  intro _ _ _
  exact .done ⟨rfl, hf.erase overRequest hrequest⟩

theorem requestRandomWords_agrees (hf : Fits keys s σ) (hi : i.program = P) (hP : P ∈ keys) (x : Surroundings)
    {requester config subscription registration request : Address} {order : Subscriptions.WordsOrder}
    {d : UInt8} {e : UInt8} (hconsumer : order.consumerProgram ∈ keys)
    (hconfig : (Site.coordinatorConfig P).address = .ok (config, b))
    (hsub : (Site.subscription P order.subscriptionId).address = .ok (subscription, c))
    (hreg : (Site.registration P order.subscriptionId order.consumerProgram).address =
      .ok (registration, d))
    (hrequest : (Site.wordsRequest P order.requestId).address = .ok (request, e))
    (k0 : key i 0 = .ok requester) (k1 : key i 1 = .ok config) (k2 : key i 2 = .ok subscription)
    (k3 : key i 3 = .ok registration) (k4 : key i 4 = .ok order.consumerProgram)
    (k5 : key i 5 = .ok request)
    (k7 : callbackMetas i = .ok (order.callbackAccounts.map fun m => ⟨m.key, false, m.isWritable⟩))
    (a8 : argument Codec.u32 i 8 = .ok order.numWords)
    (a12 : argument (Codec.block 32) i 12 = .ok order.seed)
    (a44 : argument Codec.u32 i 44 = .ok order.callbackComputeLimit) :
    Agrees (Says keys) (σ.requestRandomWords x.scene P requester order)
      (Coordinator.requestRandomWords x i s) := by
  subst hi
  have overConfig : (Site.coordinatorConfig i.program).Over keys := by simpa using hP
  have overSub : (Site.subscription i.program order.subscriptionId).Over keys := by simpa using hP
  have overReg : (Site.registration i.program order.subscriptionId order.consumerProgram).Over keys := by
    simpa using ⟨hP, hconsumer⟩
  have overRequest (n : UInt64) : (Site.wordsRequest i.program n).Over keys := by simpa using hP
  obtain ⟨slots, bitmap⟩ := unsignedMetas_eq order.callbackAccounts
  simp only [Coordinator.requestRandomWords, Registry.requestRandomWords, k0, k1, k2, k3, k4, k5, k7, a8,
    a12, a44, List.length_map, ok_bind]
  refine (hf.load overConfig hconfig).bind ?_
  intro _ old held
  obtain ⟨rfl, _, ownConfig⟩ := held
  refine (hf.load overSub hsub).bind ?_
  intro _ sub held
  obtain ⟨rfl, _, ownSub⟩ := held
  refine (hf.load overReg hreg).bind ?_
  intro _ registered held
  obtain ⟨rfl, _, ownReg⟩ := held
  have consumer : registered.programId = order.consumerProgram := ownReg.2.1
  have named : sub.id = order.subscriptionId := ownSub.1
  rw [require_of consumer]
  simp only [named, ok_bind]
  refine (Agrees.require Iff.rfl _).bind ?_
  intro _ _ _
  cases CoordinatorConfig.feeFor? old order.numWords with
  | none => exact .failed _
  | some fee =>
    refine (Agrees.require Iff.rfl _).bind ?_
    intro _ _ paid
    have same : old.requestCounter = order.requestId ↔
        Site.wordsRequest i.program old.requestCounter = .wordsRequest i.program order.requestId := by simp
    refine (hf.distinct.expect (overRequest _) (overRequest _) hrequest same).bind ?_
    intro _ _ held
    obtain ⟨rfl, next⟩ := held
    rw [next]
    refine (Agrees.require Iff.rfl _).bind ?_
    intro _ _ few
    have fits : (order.callbackAccounts.map fun m => (⟨m.key, false, m.isWritable⟩ : AccountMeta)).length ≤ 4 := by
      rwa [List.length_map]
    simp only [place_eq fits, slots, bitmap, ok_bind, minus64_of_le paid]
    refine (hf.create (overRequest _) hrequest _).bind ?_
    intro _ _ held
    obtain ⟨rfl, _⟩ := held
    refine (Agrees.toOption _).bind ?_
    intro count _ same
    subst same
    refine (Agrees.toOption _).bind ?_
    intro counter _ same
    subst same
    have stored := hf.store (overRequest _) hrequest (r := {
      requestId := order.requestId, subscriptionId := order.subscriptionId
      consumerProgram := order.consumerProgram, requester, numWords := order.numWords, seed := order.seed
      requestSlot := x.slot, callbackComputeLimit := order.callbackComputeLimit, status := .pending
      randomness := Block.zero 32, fulfilledSlot := 0
      numCallbackAccounts := UInt8.ofNat order.callbackAccounts.length
      callbackAccounts := callbackSlots order.callbackAccounts
      callbackWritableBitmap := writableBitmap order.callbackAccounts
      bump := (Site.wordsRequest i.program order.requestId).bump }) ⟨rfl, rfl⟩
    have counted := stored.store overConfig hconfig (r := { old with requestCounter := counter }) ownConfig
    exact .done ⟨rfl, counted.store overSub hsub ⟨rfl, ownSub.2⟩⟩

end

end Randomness
