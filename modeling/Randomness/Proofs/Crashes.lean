import Randomness.Proofs.Backing
import Randomness.Proofs.Booking
import Randomness.Proofs.Calm

/-!
The commands that can crash the coordinator. A command that nothing else is wrong with has to count, and its counter
can be full; and the fee for words is computed before it is known to be a 64-bit number. No other step of any command
leaves its range.
-/

namespace Randomness

open Instruction AccountMeta

/-! ## Arms -/

namespace Coordinator

section

variable (x : Surroundings) (i : Instruction) (s : Accounts)

theorem consumeRandomness_calm : Calm (Coordinator.consumeRandomness i s) := by
  simp [Coordinator.consumeRandomness, Calm.load .legacyRequest, -bind_pure_comp]

theorem closeRequest_calm : Calm (Coordinator.closeRequest i s) := by
  simp [Coordinator.closeRequest, Calm.load .legacyRequest, -bind_pure_comp]

/-- The sum is only taken if it is a 64-bit number. -/
theorem fundSubscription_calm : Calm (Coordinator.fundSubscription i s) := by
  simp [Coordinator.fundSubscription, Calm.load .subscription, -bind_pure_comp]

theorem cancelSubscription_calm : Calm (Coordinator.cancelSubscription i s) := by
  simp [Coordinator.cancelSubscription, Calm.load .subscription, -bind_pure_comp]

variable [Crypto]

theorem initializeLegacy_calm : Calm (Coordinator.initializeLegacy i s) := by
  simp [Coordinator.initializeLegacy, -bind_pure_comp]

theorem initializeSubscription_calm : Calm (Coordinator.initializeSubscription i s) := by
  simp [Coordinator.initializeSubscription, -bind_pure_comp]

theorem fulfillRandomness_calm : Calm (Coordinator.fulfillRandomness x i s) := by
  simp [Coordinator.fulfillRandomness, Calm.load .legacyConfig, Calm.load .legacyRequest, -bind_pure_comp]

theorem fulfillRandomWords_calm : Calm (Coordinator.fulfillRandomWords x i s) := by
  simp [Coordinator.fulfillRandomWords, Calm.load .coordinatorConfig, Calm.load .wordsRequest, -bind_pure_comp]

end

variable [Crypto] {keys : Set Address} {s : Accounts} {σ : Registry} {i : Instruction} {P : Address}
  {b c : UInt8}

theorem create_of_vacant (hf : Fits keys s σ) {t : Site} (ht : t.Over keys) {a : Address}
    (ha : t.address = .ok (a, b)) (vacant : σ t = none) (r : t.kind.Record) :
    create t.kind s a r = .ok (store t.kind s a r) := by
  have free : s.get? a = none := by rw [hf.get?_eq ht ha, vacant]; rfl
  rw [create, free]

section

variable (hf : Fits keys s σ) (hi : i.program = P) (hP : P ∈ keys) {owner config subscription : Address}
  {id : UInt64} (hconfig : (Site.coordinatorConfig P).address = .ok (config, b))
  (hsub : (Site.subscription P id).address = .ok (subscription, c)) (k1 : key i 1 = .ok config)
  (k2 : key i 2 = .ok subscription)

include hf hi hP hconfig hsub k1 k2

theorem createSubscription_calm (room : ∀ old, σ (.coordinatorConfig P) = some old → old.subscriptionCounter = id →
    σ (.subscription P id) = none → old.subscriptionCounter.toNat + 1 < UInt64.size) :
    Calm (Coordinator.createSubscription i s) := by
  subst hi
  have overConfig : (Site.coordinatorConfig i.program).Over keys := by simpa using hP
  have overSub (n : UInt64) : (Site.subscription i.program n).Over keys := by simpa using hP
  simp only [Coordinator.createSubscription, k1, k2, ok_bind]
  refine (Calm.load _ _ _).bind fun old loaded => ?_
  have stored := load_eq_ok hf overConfig hconfig loaded
  refine (Calm.expect _ _ _).bind fun found expected => ?_
  refine (Calm.key _ _).bind fun _ _ => ?_
  refine (Calm.create _ _ _ _).bind fun _ created => ?_
  obtain ⟨same, vacant⟩ := vacant_of_create (t := .subscription i.program old.subscriptionCounter) hf
    (overSub _) (overSub id) hsub expected created
  have counter : old.subscriptionCounter = id := by simpa using same
  rw [counter] at vacant
  exact (Calm.next64 (room old stored counter vacant)).bind fun _ _ => .ok _

theorem createSubscription_crashes (legible : σ.Legible) (k0 : key i 0 = .ok owner) {old : CoordinatorConfig}
    (stored : σ (.coordinatorConfig P) = some old) (next : old.subscriptionCounter = id)
    (vacant : σ (.subscription P id) = none) (last : ¬ old.subscriptionCounter.toNat + 1 < UInt64.size) :
    Coordinator.createSubscription i s = .error (.crashed .arithmetic) := by
  subst hi next
  have overConfig : (Site.coordinatorConfig i.program).Over keys := by simpa using hP
  have overSub : (Site.subscription i.program old.subscriptionCounter).Over keys := by simpa using hP
  have loaded := load_of_stored hf legible overConfig hconfig stored
  have expected := expect_self hsub
  have created := create_of_vacant hf overSub hsub vacant
  have crash : next64 old.subscriptionCounter = .error (.crashed .arithmetic) := if_neg last
  simp only [Coordinator.createSubscription, k0, k1, k2, loaded, expected, created, crash, ok_bind]
  rfl

end

section

variable (hf : Fits keys s σ) (hi : i.program = P) (hP : P ∈ keys)
  {owner consumer subscription registration : Address} {id : UInt64} (hconsumer : consumer ∈ keys)
  (hsub : (Site.subscription P id).address = .ok (subscription, b))
  (hreg : (Site.registration P id consumer).address = .ok (registration, c))
  (k0 : key i 0 = .ok owner) (k1 : key i 1 = .ok subscription) (k2 : key i 2 = .ok consumer)
  (k3 : key i 3 = .ok registration)

include hf hi hP hconsumer hsub hreg k0 k1 k2 k3

theorem addConsumer_calm (room : ∀ sub, σ (.subscription P id) = some sub → sub.owner = owner →
    σ (.registration P id consumer) = none → sub.consumerCount.toNat + 1 < UInt32.size) :
    Calm (Coordinator.addConsumer i s) := by
  subst hi
  have overSub : (Site.subscription i.program id).Over keys := by simpa using hP
  have overReg (n : UInt64) : (Site.registration i.program n consumer).Over keys := by
    simpa using ⟨hP, hconsumer⟩
  simp only [Coordinator.addConsumer, k0, k1, k2, k3, ok_bind]
  refine (Calm.load _ _ _).bind fun sub loaded => ?_
  have stored := load_eq_ok hf overSub hsub loaded
  refine (Calm.require _ _).bind fun _ own => ?_
  refine (Calm.expect _ _ _).bind fun found expected => ?_
  refine (Calm.create _ _ _ _).bind fun _ created => ?_
  obtain ⟨same, vacant⟩ := vacant_of_create (t := .registration i.program sub.id consumer) hf
    (overReg _) (overReg id) hreg expected created
  have named : sub.id = id := by simpa using same
  rw [named] at vacant
  exact (Calm.next32 (room sub stored (require_eq_ok.1 own) vacant)).bind fun _ _ => .ok _

theorem addConsumer_crashes (legible : σ.Legible) {sub : Subscription}
    (stored : σ (.subscription P id) = some sub) (own : sub.owner = owner)
    (vacant : σ (.registration P id consumer) = none) (last : ¬ sub.consumerCount.toNat + 1 < UInt32.size) :
    Coordinator.addConsumer i s = .error (.crashed .arithmetic) := by
  subst hi
  have overSub : (Site.subscription i.program id).Over keys := by simpa using hP
  have overReg : (Site.registration i.program id consumer).Over keys := by simpa using ⟨hP, hconsumer⟩
  have loaded := load_of_stored hf legible overSub hsub stored
  have named : sub.id = id := (hf.owned _ _ stored).1
  have expected := expect_self hreg
  have created := create_of_vacant hf overReg hreg vacant
  have crash : next32 sub.consumerCount = .error (.crashed .arithmetic) := if_neg last
  simp only [Coordinator.addConsumer, k0, k1, k2, k3, loaded, require_of own, named, expected, created, crash,
    ok_bind]
  rfl

end

/-- A request that is paid for is counted twice, for its subscription and for all of them. -/
theorem requestRandomWords_overcounts (hf : Fits keys s σ) (hi : i.program = P) (hP : P ∈ keys) (x : Surroundings)
    (legible : σ.Legible) {requester consumer config subscription registration request : Address}
    {sid id : UInt64} {words limit : UInt32} {seed : Block 32} {d e : UInt8} (hconsumer : consumer ∈ keys)
    (hconfig : (Site.coordinatorConfig P).address = .ok (config, b))
    (hsub : (Site.subscription P sid).address = .ok (subscription, c))
    (hreg : (Site.registration P sid consumer).address = .ok (registration, d))
    (hrequest : (Site.wordsRequest P id).address = .ok (request, e)) (k0 : key i 0 = .ok requester)
    (k1 : key i 1 = .ok config) (k2 : key i 2 = .ok subscription) (k3 : key i 3 = .ok registration)
    (k4 : key i 4 = .ok consumer) (k5 : key i 5 = .ok request) {metas : List AccountMeta}
    (k7 : callbackMetas i = .ok metas) (few : metas.length ≤ maxCallbackAccounts)
    (a8 : argument Codec.u32 i 8 = .ok words) (a12 : argument (Codec.block 32) i 12 = .ok seed)
    (a44 : argument Codec.u32 i 44 = .ok limit) {old : CoordinatorConfig} {sub : Subscription}
    {record : ConsumerRegistration} {fee : UInt64} (stored : σ (.coordinatorConfig P) = some old)
    (found : σ (.subscription P sid) = some sub) (registered : σ (.registration P sid consumer) = some record)
    (allowed : words ≠ 0 ∧ words ≤ old.maxNumWords) (price : old.feeFor? words = some fee)
    (paid : fee ≤ sub.balance) (next : old.requestCounter = id) (vacant : σ (.wordsRequest P id) = none)
    (last : ¬ (sub.reqCount.toNat + 1 < UInt64.size ∧ old.requestCounter.toNat + 1 < UInt64.size)) :
    Coordinator.requestRandomWords x i s = .error (.crashed .arithmetic) := by
  subst hi next
  have overConfig : (Site.coordinatorConfig i.program).Over keys := by simpa using hP
  have overSub : (Site.subscription i.program sid).Over keys := by simpa using hP
  have overReg : (Site.registration i.program sid consumer).Over keys := by simpa using ⟨hP, hconsumer⟩
  have overRequest : (Site.wordsRequest i.program old.requestCounter).Over keys := by simpa using hP
  have loadConfig := load_of_stored hf legible overConfig hconfig stored
  have loadSub := load_of_stored hf legible overSub hsub found
  have loadReg := load_of_stored hf legible overReg hreg registered
  have own : record.programId = consumer := (hf.owned _ _ registered).2.1
  have expected := expect_self hrequest
  have created := create_of_vacant hf overRequest hrequest vacant
  simp only [Coordinator.requestRandomWords, k0, k1, k2, k3, k4, k5, k7, a8, a12, a44, loadConfig, loadSub, loadReg,
    require_of own, require_of allowed, price, require_of paid, expected, require_of few, place_eq few, created,
    minus64_of_le paid, ok_bind]
  by_cases used : sub.reqCount.toNat + 1 < UInt64.size
  · have count : next64 sub.reqCount = .ok (sub.reqCount + 1) := if_pos used
    have crash : next64 old.requestCounter = .error (.crashed .arithmetic) := if_neg fun room => last ⟨used, room⟩
    rw [count, crash]
    rfl
  · have crash : next64 sub.reqCount = .error (.crashed .arithmetic) := if_neg used
    rw [crash]
    rfl

/-- The commands that add one to a number, or take one off. -/
def counting : List Discriminator :=
  [Discriminator.Instruction.requestRandomness, Discriminator.Instruction.requestRandomnessWithCallback,
    Discriminator.Instruction.createSubscription, Discriminator.Instruction.addConsumer,
    Discriminator.Instruction.removeConsumer, Discriminator.Instruction.requestRandomWords]

/-- Whatever it is told apart from these, and with whatever data and accounts, the coordinator does not crash. -/
theorem dispatch_calm {d : Discriminator} (quiet : d ∉ counting) (x : Surroundings) (i : Instruction) (s : Accounts) :
    Calm (dispatch d x i s) := by
  simp only [counting, List.mem_cons, List.not_mem_nil, or_false, not_or] at quiet
  obtain ⟨request, called, create, add, remove, order⟩ := quiet
  simp only [dispatch, request, called, create, add, remove, order, if_false]
  split_ifs
  · exact initializeLegacy_calm i s
  · exact initializeSubscription_calm i s
  · exact fulfillRandomness_calm x i s
  · exact consumeRandomness_calm i s
  · exact closeRequest_calm i s
  · exact fundSubscription_calm i s
  · exact cancelSubscription_calm i s
  · exact fulfillRandomWords_calm x i s
  · exact .refused _

theorem Calm.told {x : Surroundings} {d : Discriminator} (told : d.bytes <+: i.data) (arm : Calm (dispatch d x i s)) :
    Calm (execute x i s) := by
  by_cases proper : i.program = signatureProgram
  · rw [execute_signature proper]
    exact .ok _
  · obtain ⟨arguments, data⟩ := told
    rw [execute_of_data proper data.symm]
    cases unsigned? x i with
    | some a => exact .refused _
    | none => exact arm

end Coordinator

/-- A fee that is no 64-bit number is the only one that is not computed. -/
theorem CoordinatorConfig.feeFor?_eq_none_iff {config : CoordinatorConfig} {words : UInt32} :
    config.feeFor? words = none ↔ UInt64.size ≤ config.feePerWord.toNat * words.toNat := by
  rw [feeFor?, ite_eq_right_iff, ← Nat.not_lt]
  simp

/-! ## Commands -/

namespace Command

/-- A request for words that may be made, for a fee that is no 64-bit number. -/
inductive Overcharges (σ : Registry) (P : Address) : Command → Prop
  | requestRandomWords {requester : Address} {order : Subscriptions.WordsOrder} {config : CoordinatorConfig}
      (stored : σ (.coordinatorConfig P) = some config)
      (registered : σ (.registration P order.subscriptionId order.consumerProgram) ≠ none)
      (allowed : order.numWords ≠ 0 ∧ order.numWords ≤ config.maxNumWords)
      (large : UInt64.size ≤ config.feePerWord.toNat * order.numWords.toNat) :
      Overcharges σ P (.requestRandomWords requester order)

/-- A command that nothing is wrong with, but a number that it adds one to is at its type's maximum. -/
inductive Overcounts (σ : Registry) (P : Address) : Command → Prop
  | requestRandomness {requester treasury : Address} {callback : Option Address} {id : UInt64} {seed : Bytes}
      {config : LegacyConfig} (stored : σ (.legacyConfig P) = some config) (next : config.requestCounter = id)
      (vacant : σ (.legacyRequest P id) = none) (last : config.requestCounter.toNat + 1 = UInt64.size) :
      Overcounts σ P (.requestRandomness requester treasury callback id seed)
  | createSubscription {owner : Address} {id : UInt64} {config : CoordinatorConfig}
      (stored : σ (.coordinatorConfig P) = some config) (next : config.subscriptionCounter = id)
      (vacant : σ (.subscription P id) = none) (last : config.subscriptionCounter.toNat + 1 = UInt64.size) :
      Overcounts σ P (.createSubscription owner id)
  | addConsumer {owner consumer : Address} {id : UInt64} {sub : Subscription}
      (found : σ (.subscription P id) = some sub) (own : sub.owner = owner)
      (vacant : σ (.registration P id consumer) = none) (last : sub.consumerCount.toNat + 1 = UInt32.size) :
      Overcounts σ P (.addConsumer owner id consumer)
  | requestRandomWords {requester : Address} {order : Subscriptions.WordsOrder} {config : CoordinatorConfig}
      {sub : Subscription} (stored : σ (.coordinatorConfig P) = some config)
      (found : σ (.subscription P order.subscriptionId) = some sub)
      (registered : σ (.registration P order.subscriptionId order.consumerProgram) ≠ none)
      (allowed : order.numWords ≠ 0 ∧ order.numWords ≤ config.maxNumWords)
      (paid : config.feePerWord.toNat * order.numWords.toNat ≤ sub.balance.toNat)
      (next : config.requestCounter = order.requestId) (vacant : σ (.wordsRequest P order.requestId) = none)
      (last : sub.reqCount.toNat + 1 = UInt64.size ∨ config.requestCounter.toNat + 1 = UInt64.size) :
      Overcounts σ P (.requestRandomWords requester order)

section

variable {keys : Set Address} {σ τ : Registry} {P : Address} {c : Command}
  (same : ∀ t : Site, t.Over keys → τ t = σ t) (hP : P ∈ keys) (hc : ∀ consumer ∈ c.consumer?, consumer ∈ keys)

include same hP hc

theorem Overcharges.congr (h : c.Overcharges σ P) : c.Overcharges τ P := by
  cases h with
  | requestRandomWords stored registered allowed large =>
    refine .requestRandomWords ((same _ (Site.over_config.2 hP)).trans stored) ?_ allowed large
    rwa [same _ (Site.over_consumer.2 ⟨hP, hc _ rfl⟩)]

theorem Overcounts.congr (h : c.Overcounts σ P) : c.Overcounts τ P := by
  cases h with
  | requestRandomness stored next vacant last =>
    exact .requestRandomness ((same _ (Site.over_config.2 hP)).trans stored) next
      ((same _ (Site.over_request.2 hP)).trans vacant) last
  | createSubscription stored next vacant last =>
    exact .createSubscription ((same _ (Site.over_config.2 hP)).trans stored) next
      ((same _ (Site.over_subscription.2 hP)).trans vacant) last
  | addConsumer found own vacant last =>
    exact .addConsumer ((same _ (Site.over_subscription.2 hP)).trans found) own
      ((same _ (Site.over_consumer.2 ⟨hP, hc _ rfl⟩)).trans vacant) last
  | requestRandomWords stored found registered allowed paid next vacant last =>
    refine .requestRandomWords ((same _ (Site.over_config.2 hP)).trans stored)
      ((same _ (Site.over_subscription.2 hP)).trans found) ?_ allowed paid next
      ((same _ (Site.over_request.2 hP)).trans vacant) last
    rwa [same _ (Site.over_consumer.2 ⟨hP, hc _ rfl⟩)]

end

/-- Whether a command adds one to a number, or takes one off. -/
def counts : Command → Bool
  | requestRandomness .. | createSubscription .. | addConsumer .. | removeConsumer .. | requestRandomWords .. => true
  | _ => false

section

variable [Crypto] {keys : Set Address} {s : Accounts} {σ : Registry} {i : Instruction} {P : Address}

open Coordinator

/-- A command that does not count does not crash, whatever accounts it meets. -/
theorem quiet_calm {c : Command} (quiet : c.counts = false) (made : c.instruction P = .ok i) (x : Surroundings)
    (s : Accounts) : Calm (execute x i s) := by
  have arm {d : Discriminator} (told : d.bytes <+: i.data) (quiet : d ∉ counting) : Calm (execute x i s) :=
    .told told (dispatch_calm quiet x i s)
  have unsupported (h : Unsupported i) : Calm (execute x i s) := by
    obtain ⟨d, told, refused⟩ := h
    exact .told told (by rw [refused]; exact .refused _)
  cases c with
  | initializeLegacy =>
    simp only [instruction, Legacy.initializeConfig, bind_eq_ok, pure_eq_ok] at made
    obtain ⟨_, _, _, _, rfl⟩ := made
    exact arm (d := Discriminator.Instruction.initializeConfig) ⟨_, rfl⟩ (by decide)
  | fulfillRandomness =>
    simp only [instruction, Legacy.fulfillRandomness, bind_eq_ok, pure_eq_ok] at made
    obtain ⟨_, _, _, _, rfl⟩ := made
    exact arm (d := Discriminator.Instruction.fulfillRandomness) ⟨_, rfl⟩ (by decide)
  | consumeRandomness =>
    simp only [instruction, Legacy.consumeRandomness, bind_eq_ok, pure_eq_ok] at made
    obtain ⟨_, _, rfl⟩ := made
    exact arm (d := Discriminator.Instruction.consumeRandomness) ⟨_, rfl⟩ (by decide)
  | closeRequest =>
    simp only [instruction, Legacy.closeRequest, bind_eq_ok, pure_eq_ok] at made
    obtain ⟨_, _, rfl⟩ := made
    exact arm (d := Discriminator.Instruction.closeRequest) ⟨_, rfl⟩ (by decide)
  | initializeSubscription =>
    simp only [instruction, Subscriptions.initializeConfig, bind_eq_ok, outOfRange_eq_ok, pure_eq_ok] at made
    obtain ⟨_, _, _, _, _, rfl⟩ := made
    exact arm (d := Discriminator.Instruction.initializeConfig) ⟨_, rfl⟩ (by decide)
  | fundSubscription =>
    simp only [instruction, Subscriptions.fundSubscription, bind_eq_ok, pure_eq_ok] at made
    obtain ⟨_, _, rfl⟩ := made
    exact arm (d := Discriminator.Instruction.fundSubscription) ⟨_, rfl⟩ (by decide)
  | cancelSubscription =>
    simp only [instruction, Subscriptions.cancelSubscription, bind_eq_ok, pure_eq_ok] at made
    obtain ⟨_, _, rfl⟩ := made
    exact arm (d := Discriminator.Instruction.cancelSubscription) ⟨_, rfl⟩ (by decide)
  | fulfillRandomWords =>
    simp only [instruction, Subscriptions.fulfillRandomWords, bind_eq_ok, pure_eq_ok] at made
    obtain ⟨_, _, _, _, rfl⟩ := made
    exact arm (d := Discriminator.Instruction.fulfillRandomWords) ⟨_, rfl⟩ (by decide)
  | updateLegacy => exact unsupported (updateLegacy_unsupported made)
  | updateSubscription => exact unsupported (updateSubscription_unsupported made)
  | requestCompressed => exact unsupported (requestCompressed_unsupported made)
  | fulfillCompressed => exact unsupported (fulfillCompressed_unsupported made)
  | requestRandomness | createSubscription | addConsumer | removeConsumer | requestRandomWords => cases quiet

section

variable (hf : Fits keys s σ) (hP : P ∈ keys) (proper : P ≠ signatureProgram)

include hf hP proper

theorem createSubscription_calm {owner : Address} {id : UInt64}
    (made : (createSubscription owner id).instruction P = .ok i) (x : Surroundings)
    (room : owner ∈ x.signers → ∀ old, σ (.coordinatorConfig P) = some old → old.subscriptionCounter = id →
      σ (.subscription P id) = none → old.subscriptionCounter.toNat + 1 < UInt64.size) : Calm (execute x i s) := by
  simp only [instruction, Subscriptions.createSubscription, Subscriptions.config, Subscriptions.subscription,
    bind_eq_ok, addressOf_eq_ok, pure_eq_ok] at made
  obtain ⟨config, ⟨b, hconfig⟩, subscription, ⟨c, hsub⟩, rfl⟩ := made
  have data : Discriminator.Instruction.createSubscription.bytes =
      Discriminator.Instruction.createSubscription.bytes ++ (Codec.block 0).encode (Block.zero 0) := rfl
  refine Calm.signed proper data rfl (by simp [readonly, writable]) fun signed _ => ?_
  simp +decide only [dispatch, if_true, if_false]
  exact Coordinator.createSubscription_calm hf rfl hP hconfig hsub rfl rfl (room signed)

theorem createSubscription_crashes (legible : σ.Legible) {owner : Address} {id : UInt64}
    (made : (createSubscription owner id).instruction P = .ok i) {x : Surroundings} (signed : owner ∈ x.signers)
    {old : CoordinatorConfig} (stored : σ (.coordinatorConfig P) = some old) (next : old.subscriptionCounter = id)
    (vacant : σ (.subscription P id) = none) (last : ¬ old.subscriptionCounter.toNat + 1 < UInt64.size) :
    execute x i s = .error (.crashed .arithmetic) := by
  simp only [instruction, Subscriptions.createSubscription, Subscriptions.config, Subscriptions.subscription,
    bind_eq_ok, addressOf_eq_ok, pure_eq_ok] at made
  obtain ⟨config, ⟨b, hconfig⟩, subscription, ⟨c, hsub⟩, rfl⟩ := made
  have data : Discriminator.Instruction.createSubscription.bytes =
      Discriminator.Instruction.createSubscription.bytes ++ (Codec.block 0).encode (Block.zero 0) := rfl
  refine execute_signed proper data rfl (by simp [readonly, writable]) signed fun _ => ?_
  simp +decide only [dispatch, if_true, if_false]
  exact Coordinator.createSubscription_crashes hf rfl hP hconfig hsub rfl rfl legible
    (rfl : key _ 0 = .ok owner) stored next vacant last

variable {owner consumer : Address} {id : UInt64} (hconsumer : consumer ∈ keys)
  (made : (addConsumer owner id consumer).instruction P = .ok i)

include hconsumer made

theorem addConsumer_calm (x : Surroundings) (room : owner ∈ x.signers → ∀ sub, σ (.subscription P id) = some sub →
    sub.owner = owner → σ (.registration P id consumer) = none → sub.consumerCount.toNat + 1 < UInt32.size) :
    Calm (execute x i s) := by
  simp only [instruction, Subscriptions.addConsumer, Subscriptions.subscription, Subscriptions.registration,
    bind_eq_ok, addressOf_eq_ok, pure_eq_ok] at made
  obtain ⟨_, _, subscription, ⟨b, hsub⟩, registration, ⟨c, hreg⟩, rfl⟩ := made
  refine Calm.signed proper rfl rfl (by simp [readonly, writable]) fun signed _ => ?_
  simp +decide only [dispatch, if_true, if_false]
  exact Coordinator.addConsumer_calm hf rfl hP hconsumer hsub hreg (rfl : key _ 0 = .ok owner) rfl rfl rfl
    (room signed)

theorem addConsumer_crashes (legible : σ.Legible) {x : Surroundings} (signed : owner ∈ x.signers)
    {sub : Subscription} (stored : σ (.subscription P id) = some sub) (own : sub.owner = owner)
    (vacant : σ (.registration P id consumer) = none) (last : ¬ sub.consumerCount.toNat + 1 < UInt32.size) :
    execute x i s = .error (.crashed .arithmetic) := by
  simp only [instruction, Subscriptions.addConsumer, Subscriptions.subscription, Subscriptions.registration,
    bind_eq_ok, addressOf_eq_ok, pure_eq_ok] at made
  obtain ⟨_, _, subscription, ⟨b, hsub⟩, registration, ⟨c, hreg⟩, rfl⟩ := made
  refine execute_signed proper rfl rfl (by simp [readonly, writable]) signed fun _ => ?_
  simp +decide only [dispatch, if_true, if_false]
  exact Coordinator.addConsumer_crashes hf rfl hP hconsumer hsub hreg (rfl : key _ 0 = .ok owner) rfl rfl rfl
    legible stored own vacant last

end

theorem requestRandomWords_overcounts (hf : Fits keys s σ) (hP : P ∈ keys) (proper : P ≠ signatureProgram)
    (legible : σ.Legible) {requester : Address} {order : Subscriptions.WordsOrder}
    (hconsumer : order.consumerProgram ∈ keys) (made : (requestRandomWords requester order).instruction P = .ok i)
    (x : Surroundings) (signed : requester ∈ x.signers) {old : CoordinatorConfig} {sub : Subscription}
    {record : ConsumerRegistration} {fee : UInt64} (stored : σ (.coordinatorConfig P) = some old)
    (found : σ (.subscription P order.subscriptionId) = some sub)
    (registered : σ (.registration P order.subscriptionId order.consumerProgram) = some record)
    (allowed : order.numWords ≠ 0 ∧ order.numWords ≤ old.maxNumWords) (price : old.feeFor? order.numWords = some fee)
    (paid : fee ≤ sub.balance) (next : old.requestCounter = order.requestId)
    (vacant : σ (.wordsRequest P order.requestId) = none)
    (last : ¬ (sub.reqCount.toNat + 1 < UInt64.size ∧ old.requestCounter.toNat + 1 < UInt64.size)) :
    execute x i s = .error (.crashed .arithmetic) := by
  have few : order.callbackAccounts.length ≤ maxCallbackAccounts := by
    simp only [instruction, Subscriptions.requestRandomWords, bind_eq_ok, outOfRange_eq_ok] at made
    obtain ⟨_, _, _, few, _⟩ := made
    exact Nat.not_lt.1 few
  obtain ⟨config, subscription, registration, request, b, c, d, e, hconfig, hsub, hreg, hrequest, rfl⟩ :=
    requestRandomWords_made made
  refine execute_signed proper rfl rfl (by simp [readonly, writable]) signed fun arguments => ?_
  obtain ⟨a8, others⟩ := argument_pair arguments
  obtain ⟨a12, a44⟩ := argument_pair others
  simp +decide only [dispatch, if_true, if_false]
  exact Coordinator.requestRandomWords_overcounts hf rfl hP x legible hconsumer hconfig hsub hreg hrequest
    (rfl : key _ 0 = .ok requester) rfl rfl rfl rfl rfl
    (rfl : callbackMetas _ = .ok (order.callbackAccounts.map fun m => ⟨m.key, false, m.isWritable⟩))
    (by rwa [List.length_map]) a8 a12 a44 stored found registered allowed price paid next vacant last

omit [Crypto] in
/-- There is a record at the program that overcharges or overcounts. -/
theorem exists_stored {c : Command} (exceeds : c.Overcharges σ P ∨ c.Overcounts σ P) :
    ∃ t : Site, t.program = P ∧ σ t ≠ none := by
  rcases exceeds with charges | counts
  · cases charges with
    | requestRandomWords stored => exact ⟨.coordinatorConfig P, rfl, by simp [stored]⟩
  · cases counts with
    | requestRandomness stored => exact ⟨.legacyConfig P, rfl, by simp [stored]⟩
    | createSubscription stored => exact ⟨.coordinatorConfig P, rfl, by simp [stored]⟩
    | @addConsumer _ _ id _ found => exact ⟨.subscription P id, rfl, by simp [found]⟩
    | requestRandomWords stored => exact ⟨.coordinatorConfig P, rfl, by simp [stored]⟩

/-- A command that has the signature and neither overcharges nor overcounts ends in a result or in a refusal. -/
theorem calm {c : Command} (hf : Fits keys s σ) (counted : σ.Counted) (hP : P ∈ keys)
    (proper : P ≠ signatureProgram) (hc : ∀ consumer ∈ c.consumer?, consumer ∈ keys)
    (made : c.instruction P = .ok i) (x : Surroundings)
    (within : c.signer ∈ x.signers → ¬ c.Overcharges σ P ∧ ¬ c.Overcounts σ P) : Calm (execute x i s) := by
  cases c with
  | requestRandomness requester treasury callback id seed =>
    refine requestRandomness_calm hf hP proper made x fun signed old stored next vacant => ?_
    exact succ_lt_size_iff.2 fun last => (within signed).2 (.requestRandomness stored next vacant last)
  | createSubscription owner id =>
    refine createSubscription_calm hf hP proper made x fun signed old stored next vacant => ?_
    exact succ_lt_size_iff.2 fun last => (within signed).2 (.createSubscription stored next vacant last)
  | addConsumer owner id consumer =>
    refine addConsumer_calm hf hP proper (hc consumer rfl) made x fun signed sub found own vacant => ?_
    have bound := sub.consumerCount.toNat_lt_size
    by_contra last
    exact (within signed).2 (.addConsumer found own vacant (by omega))
  | removeConsumer owner id consumer =>
    exact removeConsumer_calm hf hP proper (hc consumer rfl) made
      (fun sub found registered => counted.positive registered found) x
  | requestRandomWords requester order =>
    refine requestRandomWords_calm hf hP proper (hc order.consumerProgram rfl) made x
      (fun signed old stored registered allowed large => ?_)
      fun signed old sub fee stored found registered allowed price paid next vacant => ?_
    · exact (within signed).1 (.requestRandomWords stored registered allowed
        (CoordinatorConfig.feeFor?_eq_none_iff.1 large))
    · have product := CoordinatorConfig.toNat_of_feeFor? price
      have covered : old.feePerWord.toNat * order.numWords.toNat ≤ sub.balance.toNat := by
        rw [← product]
        exact UInt64.le_iff_toNat_le.1 paid
      have within := (within signed).2
      constructor <;> refine succ_lt_size_iff.2 fun last => ?_
      · exact within (.requestRandomWords stored found registered allowed covered next vacant (.inl last))
      · exact within (.requestRandomWords stored found registered allowed covered next vacant (.inr last))
  | initializeLegacy | fulfillRandomness | consumeRandomness | closeRequest | updateLegacy | initializeSubscription
  | fundSubscription | cancelSubscription | fulfillRandomWords | updateSubscription | requestCompressed
  | fulfillCompressed => exact quiet_calm rfl made x s

/-- And if it overcharges or overcounts, the coordinator crashes. -/
theorem crashes {c : Command} (hf : Fits keys s σ) (legible : σ.Legible) (counted : σ.Counted) (hP : P ∈ keys)
    (proper : P ≠ signatureProgram) (hc : ∀ consumer ∈ c.consumer?, consumer ∈ keys)
    (made : c.instruction P = .ok i) {x : Surroundings} (signed : c.signer ∈ x.signers)
    (exceeds : c.Overcharges σ P ∨ c.Overcounts σ P) : execute x i s = .error (.crashed .arithmetic) := by
  have full {n size : Nat} (last : n + 1 = size) : ¬ n + 1 < size := by omega
  rcases exceeds with charges | counts
  · cases charges with
    | @requestRandomWords requester order config stored registered allowed large =>
      obtain ⟨sub, found⟩ := counted.subscribed registered
      obtain ⟨record, registered⟩ := Option.ne_none_iff_exists'.1 registered
      exact requestRandomWords_crashes hf hP proper (hc order.consumerProgram rfl) made x legible signed stored found
        registered allowed (CoordinatorConfig.feeFor?_eq_none_iff.2 large)
  · cases counts with
    | requestRandomness stored next vacant last =>
      subst next
      exact requestRandomness_crashes hf legible hP proper made signed stored vacant (full last)
    | createSubscription stored next vacant last =>
      exact createSubscription_crashes hf hP proper legible made signed stored next vacant (full last)
    | @addConsumer owner consumer id sub found own vacant last =>
      exact addConsumer_crashes hf hP proper (hc consumer rfl) made legible signed found own vacant (full last)
    | @requestRandomWords requester order config sub stored found registered allowed paid next vacant last =>
      obtain ⟨record, registered⟩ := Option.ne_none_iff_exists'.1 registered
      have bound := sub.balance.toNat_lt_size
      have computed : config.feeFor? order.numWords ≠ none := by
        intro large
        have large := CoordinatorConfig.feeFor?_eq_none_iff.1 large
        omega
      obtain ⟨fee, price⟩ := Option.ne_none_iff_exists'.1 computed
      have product := CoordinatorConfig.toNat_of_feeFor? price
      refine requestRandomWords_overcounts hf hP proper legible (hc order.consumerProgram rfl) made x signed stored
        found registered allowed price ?_ next vacant ?_
      · rw [UInt64.le_iff_toNat_le, product]
        exact paid
      · omega

end

end Command

namespace Operation

/-- A signed command overcharges. -/
def Overcharges (signers : List Address) (σ : Registry) : Operation → Prop
  | command P c => c.signer ∈ signers ∧ c.Overcharges σ P
  | signature _ _ => False

/-- A signed command overcounts. -/
def Overcounts (signers : List Address) (σ : Registry) : Operation → Prop
  | command P c => c.signer ∈ signers ∧ c.Overcounts σ P
  | signature _ _ => False

variable {keys : Set Address} {σ : Registry} {o : Operation}

section

variable {τ : Registry} (same : ∀ t : Site, t.Over keys → τ t = σ t) (inside : o.Over keys) {signers : List Address}

include same inside

theorem overcharges_congr : o.Overcharges signers τ ↔ o.Overcharges signers σ := by
  cases o with
  | signature secret message => rfl
  | command P c =>
    refine and_congr_right fun _ => ⟨?_, .congr same inside.1 inside.2⟩
    exact .congr (fun t ht => (same t ht).symm) inside.1 inside.2

theorem overcounts_congr : o.Overcounts signers τ ↔ o.Overcounts signers σ := by
  cases o with
  | signature secret message => rfl
  | command P c =>
    refine and_congr_right fun _ => ⟨?_, .congr same inside.1 inside.2⟩
    exact .congr (fun t ht => (same t ht).symm) inside.1 inside.2

end

variable [Crypto] {s : Accounts} {slot : UInt64} {i : Instruction}

/-- An instruction crashes the coordinator exactly if its operation overcharges or overcounts. -/
theorem crashed_iff (h : Backed keys s σ slot) (inside : o.Over keys) (made : o.instruction = .ok i)
    (x : Surroundings) {f : Crash} : Coordinator.execute x i s = .error (.crashed f) ↔
      f = .arithmetic ∧ (o.Overcharges x.signers σ ∨ o.Overcounts x.signers σ) := by
  cases o with
  | signature secret message =>
    cases made
    rw [Coordinator.execute_signature rfl]
    simp [Overcharges, Overcounts]
  | command P c =>
    simp only [Overcharges, Overcounts, ← and_or_left]
    by_cases proper : P = signatureProgram
    · -- Nothing is stored for the signature's program, and it is told nothing.
      have none (signed : Prop) : ¬ (f = .arithmetic ∧ signed ∧ (c.Overcharges σ P ∨ c.Overcounts σ P)) := by
        rintro ⟨_, _, exceeds⟩
        obtain ⟨t, program, stored⟩ := Command.exists_stored exceeds
        exact stored (h.plain t (program.trans proper))
      rw [Coordinator.execute_signature ((Command.program_of_instruction made).trans proper)]
      simp only [reduceCtorEq, false_iff]
      exact none _
    · constructor
      · intro crashed
        by_cases exceeds : c.signer ∈ x.signers ∧ (c.Overcharges σ P ∨ c.Overcounts σ P)
        · have crash := Command.crashes h.fits h.legible h.counted inside.1 proper inside.2 made exceeds.1 exceeds.2
          rw [crashed] at crash
          cases crash
          exact ⟨rfl, exceeds⟩
        · refine absurd crashed (Command.calm h.fits h.counted inside.1 proper inside.2 made x (fun signed => ?_) f)
          exact not_or.1 fun either => exceeds ⟨signed, either⟩
      · rintro ⟨rfl, signed, exceeds⟩
        exact Command.crashes h.fits h.legible h.counted inside.1 proper inside.2 made signed exceeds

end Operation

end Randomness
