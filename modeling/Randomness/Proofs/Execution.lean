import Randomness.Proofs.Arms

/-!
One instruction: the coordinator does to the accounts what the command it was made from does to the
matching registry, and refuses it exactly if the command is refused.
-/

namespace Randomness

open Instruction AccountMeta

namespace Coordinator

theorem argument_eq_ok {c : Codec α} {a : α} {i : Instruction} {n : Nat} :
    argument c i n = .ok a ↔ ∃ b, i.data.slice? n c.width = some b ∧ c.read b = a := by
  unfold argument Codec.readAt?
  cases i.data.slice? n c.width with
  | none => simp [refuse]
  | some b => simp

/-- The arguments start behind the discriminator. -/
theorem argument_of_data {c : Codec α} {a : α} {i : Instruction} {d : Discriminator}
    (data : i.data = d.bytes ++ c.encode a) : argument c i 8 = .ok a := by
  refine argument_eq_ok.2 ⟨c.write a, ?_, c.read_write a⟩
  rw [data, ← List.append_nil (c.encode a)]
  exact Bytes.slice?_append d (c.write a) []

theorem argument_pair {c : Codec α} {d : Codec β} {a : α} {b : β} {i : Instruction} {n : Nat}
    (h : argument (c.pair d) i n = .ok (a, b)) :
    argument c i n = .ok a ∧ argument d i (n + c.width) = .ok b := by
  obtain ⟨both, slice, read⟩ := argument_eq_ok.1 h
  obtain ⟨rfl, rfl⟩ := Prod.mk.inj read
  have slice : i.data.slice? n (c.width + d.width) = some both := slice
  obtain ⟨fits, whole⟩ := Option.dite_none_right_eq_some.1 slice
  obtain rfl := Option.some.inj whole
  constructor
  · refine argument_eq_ok.2 ⟨_, ?_, rfl⟩
    rw [Bytes.slice?, dif_pos (by omega), Option.some_inj]
    ext1
    simp [Bytes.slice, Block.front, List.take_take]
  · refine argument_eq_ok.2 ⟨_, ?_, rfl⟩
    rw [Bytes.slice?, dif_pos (by omega), Option.some_inj]
    ext1
    simp [Bytes.slice, Block.back, List.drop_take]

theorem execute_signature [Crypto] {i : Instruction} (h : i.program = signatureProgram) (x : Surroundings)
    (s : Accounts) : execute x i s = .ok ⟨s, []⟩ := if_pos h

theorem execute_of_data [Crypto] {x : Surroundings} {i : Instruction} {s : Accounts} {d : Discriminator}
    {arguments : Bytes} (proper : i.program ≠ signatureProgram) (data : i.data = d.bytes ++ arguments) :
    execute x i s = match unsigned? x i with
      | some a => refuse (.missingSignature a)
      | none => dispatch d x i s := by
  have fits : 0 + 8 ≤ (d.bytes ++ arguments).length := by
    simp only [List.length_append, d.length_eq]
    omega
  have head : i.data.slice? 0 8 = some d := by
    rw [data, Bytes.slice?, dif_pos fits]
    exact congrArg some (Bytes.slice_front d arguments fits)
  rw [execute, if_neg proper]
  generalize i.data.slice? 0 8 = found at head
  subst head
  rfl

/-- The first account signs, and no other. -/
theorem unsigned?_cons {x : Surroundings} {i : Instruction} {a : Address} {w : Bool} {ms : List AccountMeta}
    (accounts : i.accounts = ⟨a, true, w⟩ :: ms) (hms : ∀ n ∈ ms, n.isSigner = false) :
    unsigned? x i = if a ∈ x.signers then none else some a := by
  have others : ms.find? (fun n => n.isSigner && !x.signers.contains n.key) = none := by
    rw [List.find?_eq_none]
    intro n hn
    simp [hms n hn]
  rw [unsigned?, accounts]
  by_cases h : a ∈ x.signers
  · rw [List.find?_cons_of_neg (by simp [h]), others, if_pos h]
    rfl
  · rw [List.find?_cons_of_pos (by simp [h]), if_neg h]
    rfl

/-- What is told to a coordinator with one signer is decided by that signature and the arm that is
told. -/
theorem signed_agrees [Crypto] {R : α → Effect → Prop} {x : Surroundings} {i : Instruction} {s : Accounts}
    {d : Discriminator} {c : Codec β} {b : β} {a : Address} {w : Bool} {ms : List AccountMeta} {r : Option α}
    (proper : i.program ≠ signatureProgram) (data : i.data = d.bytes ++ c.encode b)
    (accounts : i.accounts = ⟨a, true, w⟩ :: ms) (hms : ∀ n ∈ ms, n.isSigner = false)
    (h : argument c i 8 = .ok b → Agrees R r (dispatch d x i s)) :
    Agrees R (if a ∈ x.signers then r else none) (execute x i s) := by
  rw [execute_of_data proper data, unsigned?_cons accounts hms]
  by_cases signed : a ∈ x.signers
  · rw [if_pos signed, if_pos signed]
    exact h (argument_of_data data)
  · rw [if_neg signed, if_neg signed]
    exact .failed _

end Coordinator

/-- The instruction that tells a command does what the command does. -/
structure Command.Faithful [Crypto] (keys : Set Address) (P : Address) (c : Command) : Prop where
  agrees : ∀ x s σ i, Fits keys s σ → c.instruction P = .ok i →
    Agrees (Says keys) (if c.signer ∈ x.signers then c.effect x.scene σ P else none)
      (Coordinator.execute x i s)

namespace Command

open Coordinator

variable [Crypto] {keys : Set Address} {P : Address}

theorem initializeLegacy_faithful (hP : P ∈ keys) (proper : P ≠ signatureProgram)
    (admin authority treasury : Address) (fee : UInt64) :
    Faithful keys P (.initializeLegacy admin authority treasury fee) := by
  refine ⟨fun x s σ i hf hi => ?_⟩
  simp only [instruction, Legacy.initializeConfig, Legacy.config, bind_eq_ok, addressOf_eq_ok,
    pure_eq_ok] at hi
  obtain ⟨_, _, config, ⟨b, hconfig⟩, rfl⟩ := hi
  refine signed_agrees proper rfl rfl (by simp [readonly, writable]) fun a8 => ?_
  simp +decide only [dispatch, if_true]
  refine initializeLegacy_agrees hf ?_ hP hconfig ?_ ?_ ?_ ?_ a8 <;> rfl

/-- What the coordinator finds in the instruction that asks for randomness. -/
structure RandomnessMade (P requester : Address) (callback : Option Address) (seed : Block 32)
    (config request : Address) (d : Discriminator) (i : Instruction) : Prop where
  program : i.program = P
  accounts : ∃ ms, i.accounts = writableSigner requester :: ms ∧ ∀ n ∈ ms, n.isSigner = false
  data : i.data = d.bytes ++ (Codec.block 32).encode seed
  arm : ∀ x s, dispatch d x i s = Coordinator.requestRandomness callback.isSome x i s
  requester : Coordinator.key i 0 = .ok requester
  config : Coordinator.key i 1 = .ok config
  request : Coordinator.key i 2 = .ok request
  callback : ∀ program ∈ callback, Coordinator.key i 4 = .ok program

theorem requestRandomness_made {requester treasury : Address} {callback : Option Address} {id : UInt64}
    {bytes : Bytes} {i : Instruction}
    (made : (requestRandomness requester treasury callback id bytes).instruction P = .ok i) :
    ∃ seed config request b c d, bytes = Block.bytes seed ∧
      (Site.legacyConfig P).address = .ok (config, b) ∧ (Site.legacyRequest P id).address = .ok (request, c) ∧
      RandomnessMade P requester callback seed config request d i := by
  cases callback with
  | none =>
    simp only [instruction, Legacy.requestRandomness, Legacy.config, Legacy.request, bind_eq_ok, seedOf_eq_ok,
      addressOf_eq_ok, pure_eq_ok] at made
    obtain ⟨seed, given, config, ⟨b, hconfig⟩, request, ⟨c, hrequest⟩, rfl⟩ := made
    refine ⟨seed, config, request, b, c, Discriminator.Instruction.requestRandomness, given, hconfig,
      hrequest, rfl, ⟨_, rfl, by simp [readonly, writable]⟩, rfl, ?_, rfl, rfl, rfl, by simp⟩
    intro x s
    simp +decide only [dispatch, if_true, if_false, Option.isSome_none]
  | some callback =>
    simp only [instruction, Legacy.requestRandomnessWithCallback, Legacy.config, Legacy.request, bind_eq_ok,
      seedOf_eq_ok, addressOf_eq_ok, pure_eq_ok] at made
    obtain ⟨seed, given, _, _, config, ⟨b, hconfig⟩, request, ⟨c, hrequest⟩, rfl⟩ := made
    refine ⟨seed, config, request, b, c, Discriminator.Instruction.requestRandomnessWithCallback, given,
      hconfig, hrequest, rfl, ⟨_, rfl, by simp [readonly, writable]⟩, rfl, ?_, rfl, rfl, rfl, ?_⟩
    · intro x s
      simp +decide only [dispatch, if_true, if_false, Option.isSome_some]
    · intro program named
      cases named
      rfl

theorem requestRandomness_faithful (hP : P ∈ keys) (proper : P ≠ signatureProgram)
    (requester treasury : Address) (callback : Option Address) (id : UInt64) (seed : Bytes) :
    Faithful keys P (.requestRandomness requester treasury callback id seed) := by
  refine ⟨fun x s σ i hf hi => ?_⟩
  obtain ⟨seed, config, request, b, c, d, rfl, hconfig, hrequest, made⟩ := requestRandomness_made hi
  obtain ⟨ms, accounts, unsigned⟩ := made.accounts
  rw [← made.program] at proper
  refine signed_agrees proper made.data accounts unsigned fun a8 => ?_
  rw [made.arm]
  exact requestRandomness_agrees hf made.program hP x hconfig hrequest made.requester made.config made.request
    made.callback a8

theorem fulfillRandomness_faithful (hP : P ∈ keys) (proper : P ≠ signatureProgram) (authority : Address)
    (id : UInt64) (randomness : Block 32) :
    Faithful keys P (.fulfillRandomness authority id randomness) := by
  refine ⟨fun x s σ i hf hi => ?_⟩
  simp only [instruction, Legacy.fulfillRandomness, Legacy.config, Legacy.request, bind_eq_ok,
    addressOf_eq_ok, pure_eq_ok] at hi
  obtain ⟨config, ⟨b, hconfig⟩, request, ⟨c, hrequest⟩, rfl⟩ := hi
  refine signed_agrees proper rfl rfl (by simp [readonly, writable]) fun arguments => ?_
  obtain ⟨a8, a16⟩ := argument_pair arguments
  simp +decide only [dispatch, if_true, if_false]
  refine fulfillRandomness_agrees hf ?_ hP x hconfig hrequest ?_ ?_ a8 a16 <;> rfl

theorem consumeRandomness_faithful (hP : P ∈ keys) (proper : P ≠ signatureProgram) (requester : Address)
    (id : UInt64) : Faithful keys P (.consumeRandomness requester id) := by
  refine ⟨fun x s σ i hf hi => ?_⟩
  simp only [instruction, Legacy.consumeRandomness, Legacy.request, bind_eq_ok, addressOf_eq_ok,
    pure_eq_ok] at hi
  obtain ⟨request, ⟨c, hrequest⟩, rfl⟩ := hi
  refine signed_agrees proper rfl rfl (by simp [writable]) fun _ => ?_
  simp +decide only [dispatch, if_true, if_false]
  refine consumeRandomness_agrees hf ?_ hP hrequest ?_ ?_ <;> rfl

theorem closeRequest_faithful (hP : P ∈ keys) (proper : P ≠ signatureProgram) (requester : Address)
    (id : UInt64) : Faithful keys P (.closeRequest requester id) := by
  refine ⟨fun x s σ i hf hi => ?_⟩
  simp only [instruction, Legacy.closeRequest, Legacy.request, bind_eq_ok, addressOf_eq_ok, pure_eq_ok] at hi
  obtain ⟨request, ⟨c, hrequest⟩, rfl⟩ := hi
  refine signed_agrees proper rfl rfl (by simp [writable]) fun _ => ?_
  simp +decide only [dispatch, if_true, if_false]
  refine closeRequest_agrees hf ?_ hP hrequest ?_ <;> rfl

theorem initializeSubscription_faithful (hP : P ∈ keys) (proper : P ≠ signatureProgram)
    (admin authority : Address) (feePerWord : UInt64) (maxNumWords : UInt32) :
    Faithful keys P (.initializeSubscription admin authority feePerWord maxNumWords) := by
  refine ⟨fun x s σ i hf hi => ?_⟩
  simp only [instruction, Subscriptions.initializeConfig, Subscriptions.config, bind_eq_ok, outOfRange_eq_ok,
    addressOf_eq_ok, pure_eq_ok] at hi
  obtain ⟨_, _, _, config, ⟨b, hconfig⟩, rfl⟩ := hi
  refine signed_agrees proper rfl rfl (by simp [readonly, writable]) fun arguments => ?_
  obtain ⟨a8, a16⟩ := argument_pair arguments
  simp +decide only [dispatch, if_true, if_false]
  refine initializeSubscription_agrees hf ?_ hP hconfig ?_ ?_ ?_ a8 a16 <;> rfl

theorem createSubscription_faithful (hP : P ∈ keys) (proper : P ≠ signatureProgram) (owner : Address)
    (id : UInt64) : Faithful keys P (.createSubscription owner id) := by
  refine ⟨fun x s σ i hf hi => ?_⟩
  simp only [instruction, Subscriptions.createSubscription, Subscriptions.config, Subscriptions.subscription,
    bind_eq_ok, addressOf_eq_ok, pure_eq_ok] at hi
  obtain ⟨config, ⟨b, hconfig⟩, subscription, ⟨c, hsub⟩, rfl⟩ := hi
  have data : Discriminator.Instruction.createSubscription.bytes =
      Discriminator.Instruction.createSubscription.bytes ++ (Codec.block 0).encode (Block.zero 0) := rfl
  refine signed_agrees proper data rfl (by simp [readonly, writable]) fun _ => ?_
  simp +decide only [dispatch, if_true, if_false]
  refine createSubscription_agrees hf ?_ hP hconfig hsub ?_ ?_ ?_ <;> rfl

theorem fundSubscription_faithful (hP : P ∈ keys) (proper : P ≠ signatureProgram) (funder : Address)
    (id amount : UInt64) : Faithful keys P (.fundSubscription funder id amount) := by
  refine ⟨fun x s σ i hf hi => ?_⟩
  simp only [instruction, Subscriptions.fundSubscription, Subscriptions.subscription, bind_eq_ok,
    addressOf_eq_ok, pure_eq_ok] at hi
  obtain ⟨subscription, ⟨c, hsub⟩, rfl⟩ := hi
  refine signed_agrees proper rfl rfl (by simp [readonly, writable]) fun arguments => ?_
  obtain ⟨_, a16⟩ := argument_pair arguments
  simp +decide only [dispatch, if_true, if_false]
  refine fundSubscription_agrees hf ?_ hP hsub ?_ a16 <;> rfl

theorem addConsumer_faithful (hP : P ∈ keys) (proper : P ≠ signatureProgram) (owner : Address) (id : UInt64)
    {consumer : Address} (hconsumer : consumer ∈ keys) :
    Faithful keys P (.addConsumer owner id consumer) := by
  refine ⟨fun x s σ i hf hi => ?_⟩
  simp only [instruction, Subscriptions.addConsumer, Subscriptions.subscription, Subscriptions.registration,
    bind_eq_ok, addressOf_eq_ok, pure_eq_ok] at hi
  obtain ⟨_, _, subscription, ⟨b, hsub⟩, registration, ⟨c, hreg⟩, rfl⟩ := hi
  refine signed_agrees proper rfl rfl (by simp [readonly, writable]) fun _ => ?_
  simp +decide only [dispatch, if_true, if_false]
  refine addConsumer_agrees hf ?_ hP hconsumer hsub hreg ?_ ?_ ?_ ?_ <;> rfl

theorem removeConsumer_faithful (hP : P ∈ keys) (proper : P ≠ signatureProgram) (owner : Address)
    (id : UInt64) {consumer : Address} (hconsumer : consumer ∈ keys) :
    Faithful keys P (.removeConsumer owner id consumer) := by
  refine ⟨fun x s σ i hf hi => ?_⟩
  simp only [instruction, Subscriptions.removeConsumer, Subscriptions.subscription,
    Subscriptions.registration, bind_eq_ok, addressOf_eq_ok, pure_eq_ok] at hi
  obtain ⟨_, _, subscription, ⟨b, hsub⟩, registration, ⟨c, hreg⟩, rfl⟩ := hi
  refine signed_agrees proper rfl rfl (by simp [readonly, writable]) fun _ => ?_
  simp +decide only [dispatch, if_true, if_false]
  refine removeConsumer_agrees hf ?_ hP hconsumer hsub hreg ?_ ?_ ?_ <;> rfl

theorem cancelSubscription_faithful (hP : P ∈ keys) (proper : P ≠ signatureProgram) (owner : Address)
    (id : UInt64) : Faithful keys P (.cancelSubscription owner id) := by
  refine ⟨fun x s σ i hf hi => ?_⟩
  simp only [instruction, Subscriptions.cancelSubscription, Subscriptions.subscription, bind_eq_ok,
    addressOf_eq_ok, pure_eq_ok] at hi
  obtain ⟨subscription, ⟨b, hsub⟩, rfl⟩ := hi
  refine signed_agrees proper rfl rfl (by simp [writable]) fun _ => ?_
  simp +decide only [dispatch, if_true, if_false]
  refine cancelSubscription_agrees hf ?_ hP hsub ?_ ?_ <;> rfl

/-- The instruction that asks for words, by the addresses that it names. -/
theorem requestRandomWords_made {requester : Address} {order : Subscriptions.WordsOrder} {i : Instruction}
    (made : (requestRandomWords requester order).instruction P = .ok i) :
    ∃ config subscription registration request b c d e,
      (Site.coordinatorConfig P).address = .ok (config, b) ∧
      (Site.subscription P order.subscriptionId).address = .ok (subscription, c) ∧
      (Site.registration P order.subscriptionId order.consumerProgram).address = .ok (registration, d) ∧
      (Site.wordsRequest P order.requestId).address = .ok (request, e) ∧
      i = {
        program := P
        accounts := [writableSigner requester, writable config, writable subscription, readonly registration,
          readonly order.consumerProgram, writable request, readonly systemProgram] ++
            order.callbackAccounts.map fun m => ⟨m.key, false, m.isWritable⟩
        data := Discriminator.Instruction.requestRandomWords.bytes ++
          (Codec.u32.pair <| (Codec.block 32).pair Codec.u32).encode
            (order.numWords, order.seed, order.callbackComputeLimit) } := by
  simp only [instruction, Subscriptions.requestRandomWords, Subscriptions.config, Subscriptions.subscription,
    Subscriptions.registration, Subscriptions.request, bind_eq_ok, outOfRange_eq_ok, addressOf_eq_ok,
    pure_eq_ok] at made
  obtain ⟨_, _, _, _, config, ⟨b, hconfig⟩, subscription, ⟨c, hsub⟩, registration, ⟨d, hreg⟩, request,
    ⟨e, hrequest⟩, rfl⟩ := made
  exact ⟨config, subscription, registration, request, b, c, d, e, hconfig, hsub, hreg, hrequest, rfl⟩

theorem requestRandomWords_faithful (hP : P ∈ keys) (proper : P ≠ signatureProgram) (requester : Address)
    {order : Subscriptions.WordsOrder} (hconsumer : order.consumerProgram ∈ keys) :
    Faithful keys P (.requestRandomWords requester order) := by
  refine ⟨fun x s σ i hf hi => ?_⟩
  obtain ⟨config, subscription, registration, request, b, c, d, e, hconfig, hsub, hreg, hrequest, rfl⟩ :=
    requestRandomWords_made hi
  refine signed_agrees proper rfl rfl (by simp [readonly, writable]) fun arguments => ?_
  obtain ⟨a8, others⟩ := argument_pair arguments
  obtain ⟨a12, a44⟩ := argument_pair others
  simp +decide only [dispatch, if_true, if_false]
  refine requestRandomWords_agrees hf ?_ hP x hconsumer hconfig hsub hreg hrequest ?_ ?_ ?_ ?_ ?_ ?_ ?_ a8
    a12 a44 <;> rfl

theorem fulfillRandomWords_faithful (hP : P ∈ keys) (proper : P ≠ signatureProgram) (authority : Address)
    (stored : WordsRequest) (randomness : Block 32) :
    Faithful keys P (.fulfillRandomWords authority stored randomness) := by
  refine ⟨fun x s σ i hf hi => ?_⟩
  simp only [instruction, Subscriptions.fulfillRandomWords, Subscriptions.config, Subscriptions.request,
    bind_eq_ok, addressOf_eq_ok, pure_eq_ok] at hi
  obtain ⟨config, ⟨b, hconfig⟩, request, ⟨c, hrequest⟩, rfl⟩ := hi
  have unsigned : ∀ m ∈ stored.callbackMetas, m.isSigner = false := by
    intro m hm
    obtain ⟨_, _, rfl⟩ := List.mem_map.1 hm
    rfl
  refine signed_agrees proper rfl rfl (by simpa [readonly, writable] using unsigned) fun arguments => ?_
  obtain ⟨a8, a16⟩ := argument_pair arguments
  simp +decide only [dispatch, if_true, if_false]
  refine fulfillRandomWords_agrees hf ?_ hP x hconfig hrequest ?_ ?_ a8 a16 <;> rfl

/-- The instruction is meant for other deployments of the coordinator: this one does not understand it. -/
def Unsupported (i : Instruction) : Prop :=
  ∃ d : Discriminator, d.bytes <+: i.data ∧ ∀ x s, dispatch d x i s = refuse (.unsupported d)

theorem updateLegacy_unsupported {admin : Address} {update : Legacy.ConfigUpdate} {i : Instruction}
    (hi : (updateLegacy admin update).instruction P = .ok i) : Unsupported i := by
  simp only [instruction, Legacy.updateConfig, bind_eq_ok, pure_eq_ok] at hi
  obtain ⟨_, _, _, _, config, _, rfl⟩ := hi
  refine ⟨Discriminator.Instruction.updateConfig, ?_, ?_⟩
  · simp only [List.append_assoc]
    exact List.prefix_append ..
  · intro x s
    simp +decide only [dispatch, if_false]

theorem updateSubscription_unsupported {admin : Address} {update : Subscriptions.ConfigUpdate} {i : Instruction}
    (hi : (updateSubscription admin update).instruction P = .ok i) : Unsupported i := by
  simp only [instruction, Subscriptions.updateConfig, bind_eq_ok, outOfRange_eq_ok, pure_eq_ok] at hi
  obtain ⟨_, _, _, _, _, config, _, rfl⟩ := hi
  refine ⟨Discriminator.Instruction.updateConfig, ?_, ?_⟩
  · simp only [List.append_assoc]
    exact List.prefix_append ..
  · intro x s
    simp +decide only [dispatch, if_false]

theorem requestCompressed_unsupported {requester treasury : Address} {order : Compressed.RequestOrder}
    {i : Instruction} (hi : (requestCompressed requester treasury order).instruction P = .ok i) :
    Unsupported i := by
  simp only [instruction, Compressed.requestRandomness, bind_eq_ok, pure_eq_ok] at hi
  obtain ⟨config, _, rfl⟩ := hi
  refine ⟨Discriminator.Instruction.requestRandomnessCompressed, ?_, ?_⟩
  · simp only [List.append_assoc]
    exact List.prefix_append ..
  · intro x s
    simp +decide only [dispatch, if_false]

theorem fulfillCompressed_unsupported {authority : Address} {order : Compressed.FulfillOrder} {i : Instruction}
    (hi : (fulfillCompressed authority order).instruction P = .ok i) : Unsupported i := by
  simp only [instruction, Compressed.fulfillRandomness, bind_eq_ok, pure_eq_ok] at hi
  obtain ⟨config, _, rfl⟩ := hi
  refine ⟨Discriminator.Instruction.fulfillRandomnessCompressed, ?_, ?_⟩
  · simp only [List.append_assoc]
    exact List.prefix_append ..
  · intro x s
    simp +decide only [dispatch, if_false]

/-- Commands of other deployments of the coordinator do nothing. -/
theorem unsupported_faithful (proper : P ≠ signatureProgram) {c : Command}
    (nothing : ∀ x σ, c.effect x σ P = none) (told : ∀ i, c.instruction P = .ok i → Unsupported i) :
    Faithful keys P c := by
  refine ⟨fun x s σ i _ hi => ?_⟩
  obtain ⟨d, ⟨arguments, data⟩, refused⟩ := told i hi
  rw [← program_of_instruction hi] at proper
  rw [nothing, ite_self, execute_of_data proper data.symm]
  cases unsigned? x i with
  | some a => exact .failed _
  | none =>
    simp only [refused]
    exact .failed _

theorem faithful (hP : P ∈ keys) (proper : P ≠ signatureProgram) (c : Command)
    (hc : ∀ consumer ∈ c.consumer?, consumer ∈ keys) : Faithful keys P c := by
  cases c with
  | initializeLegacy => apply initializeLegacy_faithful hP proper
  | requestRandomness => apply requestRandomness_faithful hP proper
  | fulfillRandomness => apply fulfillRandomness_faithful hP proper
  | consumeRandomness => apply consumeRandomness_faithful hP proper
  | closeRequest => apply closeRequest_faithful hP proper
  | updateLegacy => exact unsupported_faithful proper (fun _ _ => rfl) fun _ => updateLegacy_unsupported
  | initializeSubscription => apply initializeSubscription_faithful hP proper
  | createSubscription => apply createSubscription_faithful hP proper
  | fundSubscription => apply fundSubscription_faithful hP proper
  | addConsumer => exact addConsumer_faithful hP proper _ _ (hc _ rfl)
  | removeConsumer => exact removeConsumer_faithful hP proper _ _ (hc _ rfl)
  | cancelSubscription => apply cancelSubscription_faithful hP proper
  | requestRandomWords => exact requestRandomWords_faithful hP proper _ (hc _ rfl)
  | fulfillRandomWords => apply fulfillRandomWords_faithful hP proper
  | updateSubscription => exact unsupported_faithful proper (fun _ _ => rfl) fun _ => updateSubscription_unsupported
  | requestCompressed => exact unsupported_faithful proper (fun _ _ => rfl) fun _ => requestCompressed_unsupported
  | fulfillCompressed => exact unsupported_faithful proper (fun _ _ => rfl) fun _ => fulfillCompressed_unsupported

end Command

/-- The instruction that was made of an operation does what the operation does. -/
theorem Operation.execute_agrees [Crypto] {keys : Set Address} {s : Accounts} {σ : Registry} {o : Operation}
    {i : Instruction} (x : Surroundings) (hf : Fits keys s σ) (inside : o.Over keys)
    (hi : o.instruction = .ok i) : Agrees (Says keys) (o.step x.scene σ) (Coordinator.execute x i s) := by
  cases o with
  | command P c =>
    by_cases h : P = signatureProgram
    · rw [step, if_pos h, Coordinator.execute_signature ((Command.program_of_instruction hi).trans h)]
      exact .done ⟨rfl, hf⟩
    · rw [step, if_neg h]
      exact (Command.faithful inside.1 h c inside.2).agrees x s σ i hf hi
  | signature secret message =>
    cases hi
    rw [step, Coordinator.execute_signature rfl]
    exact .done ⟨rfl, hf⟩

/-- An instruction that is executed changes the records and logs as its operation does. -/
theorem Operation.stepped_of_executed [Crypto] {keys : Set Address} {s : Accounts} {σ : Registry} {o : Operation}
    {i : Instruction} {x : Surroundings} {e : Effect} (hf : Fits keys s σ) (inside : o.Over keys)
    (hi : o.instruction = .ok i) (executed : Coordinator.execute x i s = .ok e) :
    ∃ τ, o.step x.scene σ = some (τ, e.log) ∧ Fits keys e.accounts τ := by
  have agrees := execute_agrees x hf inside hi
  rw [executed] at agrees
  cases stepped : o.step x.scene σ with
  | none =>
    rw [stepped] at agrees
    cases agrees
  | some r =>
    rw [stepped] at agrees
    obtain ⟨logged, fits⟩ := agrees.related
    exact ⟨r.1, by rw [logged], fits⟩

end Randomness
