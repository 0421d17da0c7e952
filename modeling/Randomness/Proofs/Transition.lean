import Mathlib.Data.Option.Basic
import Randomness.Proofs.Registry

/-!
What a command that is accepted found, and what it leaves: one case for each of the coordinator's arms.
-/

namespace Randomness

open Coordinator

theorem Coordinator.next64_eq_ok {m n : UInt64} (h : next64 m = .ok n) : n.toNat = m.toNat + 1 := by
  unfold next64 at h
  split at h
  · next fits =>
    cases h
    exact (UInt64.toNat_add m 1).trans (Nat.mod_eq_of_lt fits)
  · cases h

/-- Only from the last number one cannot count on. -/
theorem Coordinator.succ_lt_size_iff {n : UInt64} : n.toNat + 1 < UInt64.size ↔ n.toNat + 1 ≠ UInt64.size := by
  have bound := n.toNat_lt_size
  omega

/-- A command's conditions held, and this is its result. -/
inductive Command.Does [Crypto] (x : Scene) (σ : Registry) (P : Address) : Command → Registry.Result → Prop
  | initializeLegacy {admin authority treasury : Address} {fee : UInt64}
      (vacant : σ (.legacyConfig P) = none) :
      Does x σ P (.initializeLegacy admin authority treasury fee)
        (σ.put (.legacyConfig P)
          { admin, authority, fee, requestCounter := 0, treasury, bump := (Site.legacyConfig P).bump }, [])
  | requestRandomness {requester treasury : Address} {callback : Option Address} {id : UInt64} {bytes : Bytes}
      {seed : Block 32} {config : LegacyConfig} {counter : UInt64}
      (given : Block.ofBytes? 32 bytes = some seed) (stored : σ (.legacyConfig P) = some config)
      (next : config.requestCounter = id) (vacant : σ (.legacyRequest P id) = none)
      (counted : next64 config.requestCounter = .ok counter) :
      Does x σ P (.requestRandomness requester treasury callback id bytes)
        ((σ.put (.legacyRequest P id)
            { requestId := id, requester, seed, requestSlot := x.slot
              callbackProgram := callback.getD Address.zero, status := .pending, randomness := Block.zero 32
              fulfilledSlot := 0, bump := (Site.legacyRequest P id).bump }).put
            (.legacyConfig P) { config with requestCounter := counter },
          [.event (.randomnessRequested { requestId := id, requester, seed, requestSlot := x.slot })])
  | fulfillRandomness {authority : Address} {id : UInt64} {randomness : Block 32} {config : LegacyConfig}
      {request : LegacyRequest} (stored : σ (.legacyConfig P) = some config)
      (proved : x.proves config.authority id randomness = true)
      (found : σ (.legacyRequest P id) = some request) (pending : request.status = .pending) :
      Does x σ P (.fulfillRandomness authority id randomness)
        (σ.put (.legacyRequest P id)
            { request with status := .fulfilled, randomness, fulfilledSlot := x.slot },
          [.event (.randomnessFulfilled { requestId := id, randomness })])
  | consumeRandomness {requester : Address} {id : UInt64} {request : LegacyRequest}
      (found : σ (.legacyRequest P id) = some request) (own : request.requester = requester)
      (fulfilled : request.status = .fulfilled) :
      Does x σ P (.consumeRandomness requester id)
        (σ.put (.legacyRequest P id) { request with status := .consumed }, [])
  | closeRequest {closer : Address} {id : UInt64} {request : LegacyRequest}
      (found : σ (.legacyRequest P id) = some request) (consumed : request.status = .consumed) :
      Does x σ P (.closeRequest closer id) (σ.drop (.legacyRequest P id), [])
  | initializeSubscription {admin authority : Address} {feePerWord : UInt64} {maxNumWords : UInt32}
      (vacant : σ (.coordinatorConfig P) = none) :
      Does x σ P (.initializeSubscription admin authority feePerWord maxNumWords)
        (σ.put (.coordinatorConfig P)
          { admin, authority, feePerWord, maxNumWords, requestCounter := 0, subscriptionCounter := 0
            bump := (Site.coordinatorConfig P).bump }, [])
  | createSubscription {owner : Address} {id counter : UInt64} {config : CoordinatorConfig}
      (stored : σ (.coordinatorConfig P) = some config) (next : config.subscriptionCounter = id)
      (vacant : σ (.subscription P id) = none) (counted : next64 config.subscriptionCounter = .ok counter) :
      Does x σ P (.createSubscription owner id)
        ((σ.put (.subscription P id)
            { id, owner, balance := 0, reqCount := 0, consumerCount := 0
              bump := (Site.subscription P id).bump }).put
            (.coordinatorConfig P) { config with subscriptionCounter := counter }, [])
  | fundSubscription {funder : Address} {id amount : UInt64} {sub : Subscription}
      (found : σ (.subscription P id) = some sub) (fits : sub.balance.toNat + amount.toNat < UInt64.size) :
      Does x σ P (.fundSubscription funder id amount)
        (σ.put (.subscription P id) { sub with balance := sub.balance + amount }, [])
  | addConsumer {owner consumer : Address} {id : UInt64} {sub : Subscription} {count : UInt32}
      (found : σ (.subscription P id) = some sub) (own : sub.owner = owner)
      (vacant : σ (.registration P id consumer) = none) (counted : next32 sub.consumerCount = .ok count) :
      Does x σ P (.addConsumer owner id consumer)
        ((σ.put (.registration P id consumer)
            { subscriptionId := id, programId := consumer, nonce := 0
              bump := (Site.registration P id consumer).bump }).put
            (.subscription P id) { sub with consumerCount := count }, [])
  | removeConsumer {owner consumer : Address} {id : UInt64} {sub : Subscription}
      {registration : ConsumerRegistration} {count : UInt32} (found : σ (.subscription P id) = some sub)
      (own : sub.owner = owner) (registered : σ (.registration P id consumer) = some registration)
      (counted : previous32 sub.consumerCount = .ok count) :
      Does x σ P (.removeConsumer owner id consumer)
        ((σ.drop (.registration P id consumer)).put (.subscription P id)
          { sub with consumerCount := count }, [])
  | cancelSubscription {owner : Address} {id : UInt64} {sub : Subscription}
      (found : σ (.subscription P id) = some sub) (own : sub.owner = owner) (unused : sub.consumerCount = 0) :
      Does x σ P (.cancelSubscription owner id) (σ.drop (.subscription P id), [])
  | requestRandomWords {requester : Address} {order : Subscriptions.WordsOrder} {config : CoordinatorConfig}
      {sub : Subscription} {registration : ConsumerRegistration} {fee count counter : UInt64}
      (stored : σ (.coordinatorConfig P) = some config)
      (found : σ (.subscription P order.subscriptionId) = some sub)
      (registered : σ (.registration P order.subscriptionId order.consumerProgram) = some registration)
      (allowed : order.numWords ≠ 0 ∧ order.numWords ≤ config.maxNumWords)
      (price : config.feeFor? order.numWords = some fee) (paid : fee ≤ sub.balance)
      (next : config.requestCounter = order.requestId)
      (few : order.callbackAccounts.length ≤ maxCallbackAccounts)
      (vacant : σ (.wordsRequest P order.requestId) = none) (used : next64 sub.reqCount = .ok count)
      (counted : next64 config.requestCounter = .ok counter) :
      Does x σ P (.requestRandomWords requester order)
        (((σ.put (.wordsRequest P order.requestId)
            { requestId := order.requestId, subscriptionId := order.subscriptionId
              consumerProgram := order.consumerProgram, requester, numWords := order.numWords
              seed := order.seed, requestSlot := x.slot, callbackComputeLimit := order.callbackComputeLimit
              status := .pending, randomness := Block.zero 32, fulfilledSlot := 0
              numCallbackAccounts := UInt8.ofNat order.callbackAccounts.length
              callbackAccounts := callbackSlots order.callbackAccounts
              callbackWritableBitmap := writableBitmap order.callbackAccounts
              bump := (Site.wordsRequest P order.requestId).bump }).put
            (.coordinatorConfig P) { config with requestCounter := counter }).put
            (.subscription P order.subscriptionId)
            { sub with balance := sub.balance - fee, reqCount := count },
          [.event (.randomWordsRequested
            { requestId := order.requestId, subscriptionId := order.subscriptionId
              consumerProgram := order.consumerProgram, requester, numWords := order.numWords
              seed := order.seed, requestSlot := x.slot
              callbackComputeLimit := order.callbackComputeLimit })])
  | fulfillRandomWords {authority : Address} {stored : WordsRequest} {randomness : Block 32}
      {config : CoordinatorConfig} {request : WordsRequest} (known : σ (.coordinatorConfig P) = some config)
      (proved : x.proves config.authority stored.requestId randomness = true)
      (found : σ (.wordsRequest P stored.requestId) = some request) (pending : request.status = .pending) :
      Does x σ P (.fulfillRandomWords authority stored randomness)
        (σ.drop (.wordsRequest P stored.requestId),
          [.invoke request.consumerProgram 2, .success request.consumerProgram,
            .event (.randomWordsFulfilled
              { requestId := stored.requestId, randomness, consumerProgram := request.consumerProgram })])

theorem Command.does_of_effect [Crypto] {x : Scene} {σ : Registry} {P : Address} {c : Command}
    {r : Registry.Result} (h : c.effect x σ P = some r) : c.Does x σ P r := by
  cases c with
  | initializeLegacy admin authority treasury fee =>
    simp only [effect, Registry.initializeLegacy, Option.bind_eq_bind, Option.bind_eq_some_iff,
      Option.guard_eq_some', Option.pure_def, Option.some.injEq] at h
    obtain ⟨_, vacant, rfl⟩ := h
    exact .initializeLegacy (Option.isNone_iff_eq_none.1 vacant)
  | requestRandomness requester treasury callback id bytes =>
    simp only [effect, Registry.requestRandomness, Option.bind_eq_bind, Option.bind_eq_some_iff,
      Option.guard_eq_some', Registry.find_eq_some, toOption_eq_some, Option.pure_def,
      Option.some.injEq] at h
    obtain ⟨seed, given, config, found, _, next, _, vacant, counter, counted, rfl⟩ := h
    exact .requestRandomness given found.1 next (Option.isNone_iff_eq_none.1 vacant) counted
  | fulfillRandomness authority id randomness =>
    simp only [effect, Registry.fulfillRandomness, Option.bind_eq_bind, Option.bind_eq_some_iff,
      Option.guard_eq_some', Registry.find_eq_some, Option.pure_def, Option.some.injEq] at h
    obtain ⟨config, stored, _, proved, request, found, _, pending, rfl⟩ := h
    exact .fulfillRandomness stored.1 proved found.1 pending
  | consumeRandomness requester id =>
    simp only [effect, Registry.consumeRandomness, Option.bind_eq_bind, Option.bind_eq_some_iff,
      Option.guard_eq_some', Registry.find_eq_some, Option.pure_def, Option.some.injEq] at h
    obtain ⟨request, found, _, own, _, fulfilled, rfl⟩ := h
    exact .consumeRandomness found.1 own fulfilled
  | closeRequest requester id =>
    simp only [effect, Registry.closeRequest, Option.bind_eq_bind, Option.bind_eq_some_iff,
      Option.guard_eq_some', Registry.find_eq_some, Option.pure_def, Option.some.injEq] at h
    obtain ⟨request, found, _, consumed, rfl⟩ := h
    exact .closeRequest found.1 consumed
  | initializeSubscription admin authority feePerWord maxNumWords =>
    simp only [effect, Registry.initializeSubscription, Option.bind_eq_bind, Option.bind_eq_some_iff,
      Option.guard_eq_some', Option.pure_def, Option.some.injEq] at h
    obtain ⟨_, vacant, rfl⟩ := h
    exact .initializeSubscription (Option.isNone_iff_eq_none.1 vacant)
  | createSubscription owner id =>
    simp only [effect, Registry.createSubscription, Option.bind_eq_bind, Option.bind_eq_some_iff,
      Option.guard_eq_some', Registry.find_eq_some, toOption_eq_some, Option.pure_def,
      Option.some.injEq] at h
    obtain ⟨config, stored, _, next, _, vacant, counter, counted, rfl⟩ := h
    exact .createSubscription stored.1 next (Option.isNone_iff_eq_none.1 vacant) counted
  | fundSubscription funder id amount =>
    simp only [effect, Registry.fundSubscription, Option.bind_eq_bind, Option.bind_eq_some_iff,
      Option.guard_eq_some', Registry.find_eq_some, Option.pure_def, Option.some.injEq] at h
    obtain ⟨sub, found, _, fits, rfl⟩ := h
    exact .fundSubscription found.1 fits
  | addConsumer owner id consumer =>
    simp only [effect, Registry.addConsumer, Option.bind_eq_bind, Option.bind_eq_some_iff,
      Option.guard_eq_some', Registry.find_eq_some, toOption_eq_some, Option.pure_def,
      Option.some.injEq] at h
    obtain ⟨sub, found, _, own, _, vacant, count, counted, rfl⟩ := h
    exact .addConsumer found.1 own (Option.isNone_iff_eq_none.1 vacant) counted
  | removeConsumer owner id consumer =>
    simp only [effect, Registry.removeConsumer, Option.bind_eq_bind, Option.bind_eq_some_iff,
      Option.guard_eq_some', Registry.find_eq_some, toOption_eq_some, Option.pure_def,
      Option.some.injEq] at h
    obtain ⟨sub, found, _, own, registration, registered, count, counted, rfl⟩ := h
    exact .removeConsumer found.1 own registered.1 counted
  | cancelSubscription owner id =>
    simp only [effect, Registry.cancelSubscription, Option.bind_eq_bind, Option.bind_eq_some_iff,
      Option.guard_eq_some', Registry.find_eq_some, Option.pure_def, Option.some.injEq] at h
    obtain ⟨sub, found, _, own, _, unused, rfl⟩ := h
    exact .cancelSubscription found.1 own unused
  | requestRandomWords requester order =>
    simp only [effect, Registry.requestRandomWords, Option.bind_eq_bind, Option.bind_eq_some_iff,
      Option.guard_eq_some', Registry.find_eq_some, toOption_eq_some, Option.pure_def,
      Option.some.injEq] at h
    obtain ⟨config, stored, sub, found, registration, registered, _, allowed, fee, price, _, paid, _, next, _,
      few, _, vacant, count, used, counter, counted, rfl⟩ := h
    exact .requestRandomWords stored.1 found.1 registered.1 allowed price paid next few
      (Option.isNone_iff_eq_none.1 vacant) used counted
  | fulfillRandomWords authority stored randomness =>
    simp only [effect, Registry.fulfillRandomWords, Option.bind_eq_bind, Option.bind_eq_some_iff,
      Option.guard_eq_some', Registry.find_eq_some, Option.pure_def, Option.some.injEq] at h
    obtain ⟨config, known, _, proved, request, found, _, pending, rfl⟩ := h
    exact .fulfillRandomWords known.1 proved found.1 pending
  | updateLegacy | updateSubscription | requestCompressed | fulfillCompressed => cases h

end Randomness
