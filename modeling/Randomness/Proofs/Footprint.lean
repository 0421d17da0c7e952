import Randomness.Proofs.Calm
import Randomness.Proofs.Frame
import Randomness.Proofs.Refinement

/-!
What an instruction may change: the accounts that it lists as writable, all of them accounts of its own program and
of the generation that its command belongs to.
-/

namespace Randomness

open Instruction AccountMeta

namespace Coordinator

/-- The accounts differ at most where the instruction lists them at one of the positions. -/
def Touches (i : Instruction) (ns : List Nat) (s s' : Accounts) : Prop :=
  ∀ a, s'.get? a ≠ s.get? a → ∃ n ∈ ns, key i n = .ok a

namespace Touches

variable {i : Instruction} {ns : List Nat} {n : Nat} {s s' : Accounts} {a : Address}

theorem refl (i : Instruction) (ns : List Nat) (s : Accounts) : Touches i ns s s := by
  intro a changed
  exact absurd rfl changed

theorem insert (h : Touches i ns s s') (listed : key i n = .ok a) (hn : n ∈ ns) (data : Bytes) :
    Touches i ns s (s'.insert a data) := by
  intro b changed
  rw [Accounts.get?_insert] at changed
  by_cases same : b = a
  · exact ⟨n, hn, by rw [listed, same]⟩
  · rw [if_neg same] at changed
    exact h b changed

theorem erase (h : Touches i ns s s') (listed : key i n = .ok a) (hn : n ∈ ns) :
    Touches i ns s (s'.erase a) := by
  intro b changed
  rw [Accounts.get?_erase] at changed
  by_cases same : b = a
  · exact ⟨n, hn, by rw [listed, same]⟩
  · rw [if_neg same] at changed
    exact h b changed

theorem create {t : Accounts} {k : Kind} {r : k.Record} (h : Touches i ns s s') (listed : key i n = .ok a)
    (hn : n ∈ ns) (created : Coordinator.create k s' a r = .ok t) : Touches i ns s t := by
  unfold Coordinator.create at created
  split at created
  · cases created
  · cases created
    exact h.insert listed hn _

end Touches

variable {x : Surroundings} {i : Instruction} {s : Accounts} {e : Effect}

/-! The positions that each arm writes at, first the arms that derive no address. -/

theorem consumeRandomness_touches (done : consumeRandomness i s = .ok e) : Touches i [1] s e.accounts := by
  simp only [consumeRandomness, bind_eq_ok, pure_eq_ok] at done
  obtain ⟨request, k1, _, _, _, _, _, _, _, _, rfl⟩ := done
  exact (Touches.refl i [1] s).insert k1 (by simp) _

theorem closeRequest_touches (done : closeRequest i s = .ok e) : Touches i [1] s e.accounts := by
  simp only [closeRequest, bind_eq_ok, pure_eq_ok] at done
  obtain ⟨request, k1, _, _, _, _, rfl⟩ := done
  exact (Touches.refl i [1] s).erase k1 (by simp)

theorem fundSubscription_touches (done : fundSubscription i s = .ok e) : Touches i [1] s e.accounts := by
  simp only [fundSubscription, bind_eq_ok, pure_eq_ok] at done
  obtain ⟨sub, k1, _, _, _, _, _, _, rfl⟩ := done
  exact (Touches.refl i [1] s).insert k1 (by simp) _

theorem removeConsumer_touches (done : removeConsumer i s = .ok e) : Touches i [3, 1] s e.accounts := by
  simp only [removeConsumer, bind_eq_ok, pure_eq_ok] at done
  obtain ⟨sub, k1, _, _, _, _, _, _, registration, k3, _, _, _, _, rfl⟩ := done
  exact ((Touches.refl i [3, 1] s).erase k3 (by simp)).insert k1 (by simp) _

theorem cancelSubscription_touches (done : cancelSubscription i s = .ok e) : Touches i [1] s e.accounts := by
  simp only [cancelSubscription, bind_eq_ok, pure_eq_ok] at done
  obtain ⟨sub, k1, _, _, _, _, _, _, _, _, rfl⟩ := done
  exact (Touches.refl i [1] s).erase k1 (by simp)

variable [Crypto]

/-- An address that was derived is the one that was supplied. -/
theorem expect_supplied {supplied a : Address} {p : Place} {P : Address} {b : UInt8}
    (found : expect supplied p P = .ok (a, b)) : a = supplied := by
  simp only [expect, bind_eq_ok, pure_eq_ok, require_eq_ok] at found
  obtain ⟨_, _, _, same, rest⟩ := found
  cases rest
  exact same

theorem initializeLegacy_touches (done : initializeLegacy i s = .ok e) : Touches i [3] s e.accounts := by
  simp only [initializeLegacy, bind_eq_ok, pure_eq_ok] at done
  obtain ⟨config, k3, ⟨a, b⟩, found, _, _, _, _, _, _, _, _, _, created, rfl⟩ := done
  obtain rfl := expect_supplied found
  exact (Touches.refl i [3] s).create k3 (by simp) created

theorem initializeSubscription_touches (done : initializeSubscription i s = .ok e) :
    Touches i [2] s e.accounts := by
  simp only [initializeSubscription, bind_eq_ok, pure_eq_ok] at done
  obtain ⟨config, k2, ⟨a, b⟩, found, _, _, _, _, _, _, _, _, _, created, rfl⟩ := done
  obtain rfl := expect_supplied found
  exact (Touches.refl i [2] s).create k2 (by simp) created

theorem requestRandomness_touches {withCallback : Bool} (done : requestRandomness withCallback x i s = .ok e) :
    Touches i [2, 1] s e.accounts := by
  have stored : ∃ config request a b k p r t d, key i 1 = .ok config ∧ key i 2 = .ok request ∧
      expect request p i.program = .ok (a, b) ∧ create k s a r = .ok t ∧ e.accounts = t.insert config d := by
    cases withCallback with
    | false =>
      simp only [requestRandomness, Bool.false_eq_true, if_false, ok_bind, bind_eq_ok, pure_eq_ok] at done
      obtain ⟨_, _, config, k1, _, _, request, k2, ⟨a, b⟩, found, _, _, t, created, _, _, rfl⟩ := done
      exact ⟨config, request, a, b, _, _, _, t, _, k1, k2, found, created, rfl⟩
    | true =>
      simp only [requestRandomness, if_true, bind_eq_ok, pure_eq_ok] at done
      obtain ⟨_, _, config, k1, _, _, request, k2, ⟨a, b⟩, found, _, _, _, _, t, created, _, _, rfl⟩ := done
      exact ⟨config, request, a, b, _, _, _, t, _, k1, k2, found, created, rfl⟩
  obtain ⟨config, request, a, b, k, p, r, t, d, k1, k2, found, created, left⟩ := stored
  obtain rfl := expect_supplied found
  rw [left]
  exact ((Touches.refl i [2, 1] s).create k2 (by simp) created).insert k1 (by simp) d

theorem fulfillRandomness_touches (done : fulfillRandomness x i s = .ok e) : Touches i [2] s e.accounts := by
  simp only [fulfillRandomness, bind_eq_ok, pure_eq_ok] at done
  obtain ⟨_, _, _, _, _, _, _, _, _, _, request, k2, _, _, _, _, rfl⟩ := done
  exact (Touches.refl i [2] s).insert k2 (by simp) _

theorem createSubscription_touches (done : createSubscription i s = .ok e) :
    Touches i [2, 1] s e.accounts := by
  simp only [createSubscription, bind_eq_ok, pure_eq_ok] at done
  obtain ⟨config, k1, _, _, sub, k2, ⟨a, b⟩, found, _, _, t, created, _, _, rfl⟩ := done
  obtain rfl := expect_supplied found
  exact ((Touches.refl i [2, 1] s).create k2 (by simp) created).insert k1 (by simp) _

theorem addConsumer_touches (done : addConsumer i s = .ok e) : Touches i [3, 1] s e.accounts := by
  simp only [addConsumer, bind_eq_ok, pure_eq_ok] at done
  obtain ⟨sub, k1, _, _, _, _, _, _, _, _, registration, k3, ⟨a, b⟩, found, t, created, _, _, rfl⟩ := done
  obtain rfl := expect_supplied found
  exact ((Touches.refl i [3, 1] s).create k3 (by simp) created).insert k1 (by simp) _

theorem requestRandomWords_touches (done : requestRandomWords x i s = .ok e) :
    Touches i [5, 1, 2] s e.accounts := by
  simp only [requestRandomWords, bind_eq_ok] at done
  obtain ⟨_, _, config, k1, _, _, sub, k2, _, _, _, _, _, _, _, _, _, _, _, _, _, _, _, _, _, _, done⟩ := done
  split at done
  · simp only [ok_bind, bind_eq_ok, pure_eq_ok] at done
    obtain ⟨_, _, request, k5, ⟨a, b⟩, found, _, _, _, _, _, _, t, created, _, _, _, _, _, _, rfl⟩ := done
    obtain rfl := expect_supplied found
    have requested := (Touches.refl i [5, 1, 2] s).create k5 (by simp) created
    exact (requested.insert k1 (by simp) _).insert k2 (by simp) _
  · cases done

theorem fulfillRandomWords_touches (done : fulfillRandomWords x i s = .ok e) :
    Touches i [2] s e.accounts := by
  simp only [fulfillRandomWords, bind_eq_ok, pure_eq_ok] at done
  obtain ⟨_, _, _, _, _, _, _, _, _, _, request, k2, _, _, _, _, rfl⟩ := done
  exact (Touches.refl i [2] s).erase k2 (by simp)

end Coordinator

namespace Command

open Coordinator

variable [Crypto] {P : Address} {i : Instruction}

/-- At position `n` the instruction lists, as writable, the account of a site that the command writes. -/
def DeclaresAt (c : Command) (P : Address) (i : Instruction) (n : Nat) : Prop :=
  ∃ t ∈ c.writes P, ∃ a b, t.address = .ok (a, b) ∧ i.accounts[n]? = some (writable a)

/-- Whatever the accounts are, the instruction changes only those of sites that the command writes, and lists them
as writable. -/
def Confined (c : Command) (P : Address) (i : Instruction) : Prop :=
  ∀ x s e a, execute x i s = .ok e → e.accounts.get? a ≠ s.get? a →
    ∃ t ∈ c.writes P, (∃ b, t.address = .ok (a, b)) ∧ writable a ∈ i.accounts

/-- An instruction is confined if the arm that it is told to is, and lists as writable what the arm writes. -/
theorem confined_of_arm {c : Command} {d : Discriminator} {arguments : Bytes} (ns : List Nat)
    (data : i.data = d.bytes ++ arguments) (declared : ∀ n ∈ ns, c.DeclaresAt P i n)
    (arm : ∀ x s e, dispatch d x i s = .ok e → Touches i ns s e.accounts) : c.Confined P i := by
  intro x s e a done changed
  by_cases idle : i.program = signatureProgram
  · rw [execute_signature idle] at done
    cases done
    exact absurd rfl changed
  rw [execute_of_data idle data] at done
  split at done
  · cases done
  · obtain ⟨n, hn, listed⟩ := arm x s e done a changed
    obtain ⟨t, written, a', b, ha, declared⟩ := declared n hn
    rw [Coordinator.key, declared] at listed
    cases listed
    exact ⟨t, written, ⟨b, ha⟩, List.mem_of_getElem? declared⟩

/-- A refused instruction changes nothing. -/
theorem confined_of_unsupported {c : Command} (h : Unsupported i) : c.Confined P i := by
  obtain ⟨d, ⟨arguments, data⟩, refused⟩ := h
  refine confined_of_arm [] data.symm (by simp) ?_
  intro x s e done
  rw [refused] at done
  cases done

theorem initializeLegacy_confined {admin authority treasury : Address} {fee : UInt64}
    (hi : (initializeLegacy admin authority treasury fee).instruction P = .ok i) :
    (initializeLegacy admin authority treasury fee).Confined P i := by
  simp only [instruction, Legacy.initializeConfig, Legacy.config, bind_eq_ok, addressOf_eq_ok, pure_eq_ok] at hi
  obtain ⟨_, _, config, ⟨b, hconfig⟩, rfl⟩ := hi
  refine confined_of_arm [3] rfl ?_ ?_
  · exact List.forall_mem_singleton.2 ⟨_, List.mem_singleton_self _, config, b, hconfig, rfl⟩
  · intro x s e done
    simp +decide only [dispatch, if_true, if_false] at done
    exact initializeLegacy_touches done

/-- With or without a callback. -/
theorem requestRandomness_confined {requester treasury : Address} {callback : Option Address} {id : UInt64}
    {seed : Bytes} (hi : (requestRandomness requester treasury callback id seed).instruction P = .ok i) :
    (requestRandomness requester treasury callback id seed).Confined P i := by
  have declared {config request : Address} {b c : UInt8} (hconfig : (Site.legacyConfig P).address = .ok (config, b))
      (hrequest : (Site.legacyRequest P id).address = .ok (request, c))
      (at1 : i.accounts[1]? = some (writable config)) (at2 : i.accounts[2]? = some (writable request)) :
      ∀ n ∈ [2, 1], (requestRandomness requester treasury callback id seed).DeclaresAt P i n := by
    refine List.forall_mem_cons.2 ⟨?_, List.forall_mem_singleton.2 ?_⟩
    · exact ⟨_, by simp [writes], request, c, hrequest, at2⟩
    · exact ⟨_, by simp [writes], config, b, hconfig, at1⟩
  cases callback with
  | none =>
    simp only [instruction, Legacy.requestRandomness, Legacy.config, Legacy.request, bind_eq_ok, seedOf_eq_ok,
      addressOf_eq_ok, pure_eq_ok] at hi
    obtain ⟨_, _, config, ⟨b, hconfig⟩, request, ⟨c, hrequest⟩, rfl⟩ := hi
    refine confined_of_arm [2, 1] rfl (declared hconfig hrequest rfl rfl) ?_
    intro x s e done
    simp +decide only [dispatch, if_true, if_false] at done
    exact requestRandomness_touches done
  | some callback =>
    simp only [instruction, Legacy.requestRandomnessWithCallback, Legacy.config, Legacy.request, bind_eq_ok,
      seedOf_eq_ok, addressOf_eq_ok, pure_eq_ok] at hi
    obtain ⟨_, _, _, _, config, ⟨b, hconfig⟩, request, ⟨c, hrequest⟩, rfl⟩ := hi
    refine confined_of_arm [2, 1] rfl (declared hconfig hrequest rfl rfl) ?_
    intro x s e done
    simp +decide only [dispatch, if_true, if_false] at done
    exact requestRandomness_touches done

theorem fulfillRandomness_confined {authority : Address} {id : UInt64} {randomness : Block 32}
    (hi : (fulfillRandomness authority id randomness).instruction P = .ok i) :
    (fulfillRandomness authority id randomness).Confined P i := by
  simp only [instruction, Legacy.fulfillRandomness, Legacy.config, Legacy.request, bind_eq_ok,
    addressOf_eq_ok, pure_eq_ok] at hi
  obtain ⟨config, _, request, ⟨c, hrequest⟩, rfl⟩ := hi
  refine confined_of_arm [2] rfl ?_ ?_
  · exact List.forall_mem_singleton.2 ⟨_, List.mem_singleton_self _, request, c, hrequest, rfl⟩
  · intro x s e done
    simp +decide only [dispatch, if_true, if_false] at done
    exact fulfillRandomness_touches done

theorem consumeRandomness_confined {requester : Address} {id : UInt64}
    (hi : (consumeRandomness requester id).instruction P = .ok i) :
    (consumeRandomness requester id).Confined P i := by
  simp only [instruction, Legacy.consumeRandomness, Legacy.request, bind_eq_ok, addressOf_eq_ok,
    pure_eq_ok] at hi
  obtain ⟨request, ⟨c, hrequest⟩, rfl⟩ := hi
  refine confined_of_arm [1] rfl ?_ ?_
  · exact List.forall_mem_singleton.2 ⟨_, List.mem_singleton_self _, request, c, hrequest, rfl⟩
  · intro x s e done
    simp +decide only [dispatch, if_true, if_false] at done
    exact consumeRandomness_touches done

theorem closeRequest_confined {requester : Address} {id : UInt64}
    (hi : (closeRequest requester id).instruction P = .ok i) :
    (closeRequest requester id).Confined P i := by
  simp only [instruction, Legacy.closeRequest, Legacy.request, bind_eq_ok, addressOf_eq_ok, pure_eq_ok] at hi
  obtain ⟨request, ⟨c, hrequest⟩, rfl⟩ := hi
  refine confined_of_arm [1] rfl ?_ ?_
  · exact List.forall_mem_singleton.2 ⟨_, List.mem_singleton_self _, request, c, hrequest, rfl⟩
  · intro x s e done
    simp +decide only [dispatch, if_true, if_false] at done
    exact closeRequest_touches done

theorem initializeSubscription_confined {admin authority : Address} {feePerWord : UInt64} {maxNumWords : UInt32}
    (hi : (initializeSubscription admin authority feePerWord maxNumWords).instruction P = .ok i) :
    (initializeSubscription admin authority feePerWord maxNumWords).Confined P i := by
  simp only [instruction, Subscriptions.initializeConfig, Subscriptions.config, bind_eq_ok, outOfRange_eq_ok,
    addressOf_eq_ok, pure_eq_ok] at hi
  obtain ⟨_, _, _, config, ⟨b, hconfig⟩, rfl⟩ := hi
  refine confined_of_arm [2] rfl ?_ ?_
  · exact List.forall_mem_singleton.2 ⟨_, List.mem_singleton_self _, config, b, hconfig, rfl⟩
  · intro x s e done
    simp +decide only [dispatch, if_true, if_false] at done
    exact initializeSubscription_touches done

theorem createSubscription_confined {owner : Address} {id : UInt64}
    (hi : (createSubscription owner id).instruction P = .ok i) :
    (createSubscription owner id).Confined P i := by
  simp only [instruction, Subscriptions.createSubscription, Subscriptions.config, Subscriptions.subscription,
    bind_eq_ok, addressOf_eq_ok, pure_eq_ok] at hi
  obtain ⟨config, ⟨b, hconfig⟩, subscription, ⟨c, hsub⟩, rfl⟩ := hi
  refine confined_of_arm [2, 1] (List.append_nil _).symm ?_ ?_
  · refine List.forall_mem_cons.2 ⟨?_, List.forall_mem_singleton.2 ?_⟩
    · exact ⟨_, by simp [writes], subscription, c, hsub, rfl⟩
    · exact ⟨_, by simp [writes], config, b, hconfig, rfl⟩
  · intro x s e done
    simp +decide only [dispatch, if_true, if_false] at done
    exact createSubscription_touches done

theorem fundSubscription_confined {funder : Address} {id amount : UInt64}
    (hi : (fundSubscription funder id amount).instruction P = .ok i) :
    (fundSubscription funder id amount).Confined P i := by
  simp only [instruction, Subscriptions.fundSubscription, Subscriptions.subscription, bind_eq_ok,
    addressOf_eq_ok, pure_eq_ok] at hi
  obtain ⟨subscription, ⟨c, hsub⟩, rfl⟩ := hi
  refine confined_of_arm [1] rfl ?_ ?_
  · exact List.forall_mem_singleton.2 ⟨_, List.mem_singleton_self _, subscription, c, hsub, rfl⟩
  · intro x s e done
    simp +decide only [dispatch, if_true, if_false] at done
    exact fundSubscription_touches done

theorem addConsumer_confined {owner consumer : Address} {id : UInt64}
    (hi : (addConsumer owner id consumer).instruction P = .ok i) :
    (addConsumer owner id consumer).Confined P i := by
  simp only [instruction, Subscriptions.addConsumer, Subscriptions.subscription, Subscriptions.registration,
    bind_eq_ok, addressOf_eq_ok, pure_eq_ok] at hi
  obtain ⟨_, _, subscription, ⟨b, hsub⟩, registration, ⟨c, hreg⟩, rfl⟩ := hi
  refine confined_of_arm [3, 1] rfl ?_ ?_
  · refine List.forall_mem_cons.2 ⟨?_, List.forall_mem_singleton.2 ?_⟩
    · exact ⟨_, by simp [writes], registration, c, hreg, rfl⟩
    · exact ⟨_, by simp [writes], subscription, b, hsub, rfl⟩
  · intro x s e done
    simp +decide only [dispatch, if_true, if_false] at done
    exact addConsumer_touches done

theorem removeConsumer_confined {owner consumer : Address} {id : UInt64}
    (hi : (removeConsumer owner id consumer).instruction P = .ok i) :
    (removeConsumer owner id consumer).Confined P i := by
  simp only [instruction, Subscriptions.removeConsumer, Subscriptions.subscription,
    Subscriptions.registration, bind_eq_ok, addressOf_eq_ok, pure_eq_ok] at hi
  obtain ⟨_, _, subscription, ⟨b, hsub⟩, registration, ⟨c, hreg⟩, rfl⟩ := hi
  refine confined_of_arm [3, 1] rfl ?_ ?_
  · refine List.forall_mem_cons.2 ⟨?_, List.forall_mem_singleton.2 ?_⟩
    · exact ⟨_, by simp [writes], registration, c, hreg, rfl⟩
    · exact ⟨_, by simp [writes], subscription, b, hsub, rfl⟩
  · intro x s e done
    simp +decide only [dispatch, if_true, if_false] at done
    exact removeConsumer_touches done

theorem cancelSubscription_confined {owner : Address} {id : UInt64}
    (hi : (cancelSubscription owner id).instruction P = .ok i) :
    (cancelSubscription owner id).Confined P i := by
  simp only [instruction, Subscriptions.cancelSubscription, Subscriptions.subscription, bind_eq_ok,
    addressOf_eq_ok, pure_eq_ok] at hi
  obtain ⟨subscription, ⟨b, hsub⟩, rfl⟩ := hi
  refine confined_of_arm [1] rfl ?_ ?_
  · exact List.forall_mem_singleton.2 ⟨_, List.mem_singleton_self _, subscription, b, hsub, rfl⟩
  · intro x s e done
    simp +decide only [dispatch, if_true, if_false] at done
    exact cancelSubscription_touches done

theorem requestRandomWords_confined {requester : Address} {order : Subscriptions.WordsOrder}
    (hi : (requestRandomWords requester order).instruction P = .ok i) :
    (requestRandomWords requester order).Confined P i := by
  obtain ⟨config, subscription, _, request, b, c, _, e, hconfig, hsub, _, hrequest, rfl⟩ :=
    requestRandomWords_made hi
  refine confined_of_arm [5, 1, 2] rfl ?_ ?_
  · refine List.forall_mem_cons.2 ⟨?_, List.forall_mem_cons.2 ⟨?_, List.forall_mem_singleton.2 ?_⟩⟩
    · exact ⟨_, by simp [writes], request, e, hrequest, rfl⟩
    · exact ⟨_, by simp [writes], config, b, hconfig, rfl⟩
    · exact ⟨_, by simp [writes], subscription, c, hsub, rfl⟩
  · intro x s e done
    simp +decide only [dispatch, if_true, if_false] at done
    exact requestRandomWords_touches done

theorem fulfillRandomWords_confined {authority : Address} {stored : WordsRequest} {randomness : Block 32}
    (hi : (fulfillRandomWords authority stored randomness).instruction P = .ok i) :
    (fulfillRandomWords authority stored randomness).Confined P i := by
  simp only [instruction, Subscriptions.fulfillRandomWords, Subscriptions.config, Subscriptions.request,
    bind_eq_ok, addressOf_eq_ok, pure_eq_ok] at hi
  obtain ⟨config, _, request, ⟨c, hrequest⟩, rfl⟩ := hi
  refine confined_of_arm [2] rfl ?_ ?_
  · exact List.forall_mem_singleton.2 ⟨_, List.mem_singleton_self _, request, c, hrequest, rfl⟩
  · intro x s e done
    simp +decide only [dispatch, if_true, if_false] at done
    exact fulfillRandomWords_touches done

theorem confined {c : Command} (hi : c.instruction P = .ok i) : c.Confined P i := by
  cases c with
  | initializeLegacy => exact initializeLegacy_confined hi
  | requestRandomness => exact requestRandomness_confined hi
  | fulfillRandomness => exact fulfillRandomness_confined hi
  | consumeRandomness => exact consumeRandomness_confined hi
  | closeRequest => exact closeRequest_confined hi
  | updateLegacy => exact confined_of_unsupported (updateLegacy_unsupported hi)
  | initializeSubscription => exact initializeSubscription_confined hi
  | createSubscription => exact createSubscription_confined hi
  | fundSubscription => exact fundSubscription_confined hi
  | addConsumer => exact addConsumer_confined hi
  | removeConsumer => exact removeConsumer_confined hi
  | cancelSubscription => exact cancelSubscription_confined hi
  | requestRandomWords => exact requestRandomWords_confined hi
  | fulfillRandomWords => exact fulfillRandomWords_confined hi
  | updateSubscription => exact confined_of_unsupported (updateSubscription_unsupported hi)
  | requestCompressed => exact confined_of_unsupported (requestCompressed_unsupported hi)
  | fulfillCompressed => exact confined_of_unsupported (fulfillCompressed_unsupported hi)

/-- The generation of the protocol that a command belongs to; commands to the compressed service belong to none. -/
def generation? : Command → Option Generation
  | initializeLegacy .. | requestRandomness .. | fulfillRandomness .. | consumeRandomness .. | closeRequest ..
  | updateLegacy .. => some .legacy
  | initializeSubscription .. | createSubscription .. | fundSubscription .. | addConsumer ..
  | removeConsumer .. | cancelSubscription .. | requestRandomWords .. | fulfillRandomWords ..
  | updateSubscription .. => some .subscription
  | requestCompressed .. | fulfillCompressed .. => none

end Command

/-- The generation of the protocol that an account belongs to. -/
def Place.generation : Place → Generation
  | config g | request g _ => g
  | subscription _ | consumer _ _ => .subscription

namespace Operation

variable [Crypto] {keys : Set Address} {o : Operation} {i : Instruction} {t u : Site} {a : Address} {b : UInt8}

/-- The sites that an operation may write. -/
def writes : Operation → List Site
  | command P c => c.writes P
  | signature _ _ => []

def generation? : Operation → Option Generation
  | command _ c => c.generation?
  | signature _ _ => none

omit [Crypto] in
theorem program_of_mem_writes (h : t ∈ o.writes) : t.program = o.program := by
  cases o with
  | command P c => exact Command.program_of_mem_writes h
  | signature => simp [writes] at h

omit [Crypto] in
theorem generation_of_mem_writes (h : t ∈ o.writes) : o.generation? = some t.place.generation := by
  cases o with
  | command P c =>
    cases c <;> simp only [writes, Command.writes, List.mem_cons, List.not_mem_nil, or_false] at h <;>
      rcases h with rfl | rfl | rfl <;> rfl
  | signature => simp [writes] at h

omit [Crypto] in
theorem over_of_mem_writes (inside : o.Over keys) (h : t ∈ o.writes) : t.Over keys := by
  cases o with
  | command P c =>
    obtain ⟨hP, named⟩ := inside
    refine ⟨Command.program_of_mem_writes h ▸ hP, ?_⟩
    intro id consumer place
    apply named
    cases c <;> simp only [writes, Command.writes, List.mem_cons, List.not_mem_nil, or_false] at h <;>
      rcases h with rfl | rfl | rfl <;> cases place <;> rfl
  | signature => simp [writes] at h

/-- The instruction was made of the operation, and lists the address as writable for a site that the operation may
write. -/
def Declares (o : Operation) (i : Instruction) (a : Address) : Prop :=
  o.instruction = .ok i ∧ ∃ t ∈ o.writes, (∃ b, t.address = .ok (a, b)) ∧ writable a ∈ i.accounts

theorem declares_of_changed {x : Surroundings} {s : Accounts} {e : Effect} (hi : o.instruction = .ok i)
    (done : Coordinator.execute x i s = .ok e) (changed : e.accounts.get? a ≠ s.get? a) : o.Declares i a := by
  cases o with
  | command P c => exact ⟨hi, Command.confined hi x s e a done changed⟩
  | signature secret message =>
    cases hi
    rw [Coordinator.execute_signature rfl] at done
    cases done
    exact absurd rfl changed

/-- The operation may write at the site: it tells the site's program a command of the site's generation. -/
def Concerns (o : Operation) (u : Site) : Prop :=
  o.program = u.program ∧ o.generation? = some u.place.generation

theorem Declares.concerns (h : o.Declares i a) (distinct : DistinctAddresses keys) (inside : o.Over keys)
    (hu : u.Over keys) (ha : u.address = .ok (a, b)) : o.Concerns u := by
  obtain ⟨_, t, written, ⟨c, ht⟩, _⟩ := h
  obtain rfl : t = u := distinct t u (over_of_mem_writes inside written) hu a c b ht ha
  exact ⟨(program_of_mem_writes written).symm, generation_of_mem_writes written⟩

end Operation

namespace Ledger

variable [Crypto] {a : Address}

/-- What the instructions of a transaction change, one of them declares. -/
theorem declares_of_executeFrom {x : Surroundings} {n : Nat} {s : Accounts} {os : List Operation}
    {is : List Instruction} {e : Effect} (made : os.mapM Operation.instruction = .ok is)
    (run : executeFrom x n s is = .ok e) (changed : e.accounts.get? a ≠ s.get? a) :
    ∃ o ∈ os, ∃ i ∈ is, o.Declares i a := by
  induction os generalizing n s is e with
  | nil =>
    cases made
    cases run
    exact absurd rfl changed
  | cons o os ih =>
    obtain ⟨i, is, hi, rest, rfl⟩ := Submission.instructions_cons_eq_ok.1 made
    simp only [executeFrom, bind_eq_ok, mapError_eq_ok, pure_eq_ok] at run
    obtain ⟨first, done, later, run, rfl⟩ := run
    by_cases kept : first.accounts.get? a = s.get? a
    · rw [← kept] at changed
      obtain ⟨p, hp, j, hj, declared⟩ := ih rest run changed
      exact ⟨p, List.mem_cons_of_mem o hp, j, List.mem_cons_of_mem i hj, declared⟩
    · exact ⟨o, List.mem_cons_self, i, List.mem_cons_self, Operation.declares_of_changed hi done kept⟩

theorem declares_of_submit {l l' : Ledger} {t : Submission} {is : List Instruction} {e : Execution}
    (made : t.instructions = .ok is) (submitted : l.submit is t.signers = .ok (l', e))
    (changed : l'.get? a ≠ l.get? a) : ∃ o ∈ t.operations, ∃ i ∈ is, o.Declares i a := by
  obtain ⟨slot, effect, transactions, _, run, _, rfl, _⟩ := submit_eq_ok.1 submitted
  exact declares_of_executeFrom made run changed

/-- An instruction changes only accounts that it lists as writable, and a transaction only accounts that one of its
instructions lists so. As long as addresses are distinct, the accounts of a program and a generation are left as
they are by every instruction, and every transaction, that tells this program no command of this generation. -/
theorem changes_declared :
    (∀ (o : Operation) i x s e a, o.instruction = .ok i → Coordinator.execute x i s = .ok e →
      e.accounts.get? a ≠ s.get? a → ∃ m ∈ i.accounts, m.key = a ∧ m.isWritable = true) ∧
    (∀ (l : Ledger) (t : Submission) is l' e a, t.instructions = .ok is →
      l.submit is t.signers = .ok (l', e) → l'.get? a ≠ l.get? a →
        ∃ i ∈ is, ∃ m ∈ i.accounts, m.key = a ∧ m.isWritable = true) ∧
    ∀ keys, DistinctAddresses keys → ∀ (u : Site) a b, u.Over keys → u.address = .ok (a, b) →
      (∀ (o : Operation) i x s e, o.Over keys → o.instruction = .ok i → Coordinator.execute x i s = .ok e →
        (i.program ≠ u.program ∨ o.generation? ≠ some u.place.generation) →
          e.accounts.get? a = s.get? a) ∧
      ∀ (l : Ledger) (t : Submission) is l' e, t.Over keys → t.instructions = .ok is →
        l.submit is t.signers = .ok (l', e) →
        (∀ o ∈ t.operations, o.program ≠ u.program ∨ o.generation? ≠ some u.place.generation) →
          l'.get? a = l.get? a := by
  refine ⟨?_, ?_, ?_⟩
  · intro o i x s e a hi done changed
    obtain ⟨_, _, _, _, listed⟩ := Operation.declares_of_changed hi done changed
    exact ⟨writable a, listed, rfl, rfl⟩
  · intro l t is l' e a made submitted changed
    obtain ⟨_, _, i, hi, _, _, _, _, listed⟩ := declares_of_submit made submitted changed
    exact ⟨i, hi, writable a, listed, rfl, rfl⟩
  intro keys distinct u a b hu ha
  constructor
  · intro o i x s e inside hi done apart
    by_contra changed
    have concerns := (Operation.declares_of_changed hi done changed).concerns distinct inside hu ha
    rw [Operation.program_of_instruction hi] at apart
    exact apart.elim (· concerns.1) (· concerns.2)
  · intro l t is l' e inside made submitted apart
    by_contra changed
    obtain ⟨o, ho, i, _, declared⟩ := declares_of_submit made submitted changed
    have concerns := declared.concerns distinct (inside o ho) hu ha
    exact (apart o ho).elim (· concerns.1) (· concerns.2)

end Ledger

namespace Recorded

/-- One more request of the legacy generation. -/
def second : Submission where
  operations := [.command program (.requestRandomness consumer program none 1 (List.replicate 32 6))]
  signers := [consumer]

/-- After the opening, a second request is counted in the legacy configuration, which its instruction lists as
writable. The configuration of the subscriptions was there before, and stays as it is. -/
theorem second_declared : ∃ is l e js l' f, @Submission.instructions crypto opening = .ok is ∧
    @Ledger.submit crypto Ledger.fresh is opening.signers = .ok (l, e) ∧
    @Submission.instructions crypto second = .ok js ∧ @Ledger.submit crypto l js second.signers = .ok (l', f) ∧
    (∃ a, @Site.address crypto (.legacyConfig program) = .ok (a, 255) ∧ l'.get? a ≠ l.get? a ∧
      ∃ i ∈ js, ∃ m ∈ i.accounts, m.key = a ∧ m.isWritable = true) ∧
    ∃ a, @Site.address crypto (.coordinatorConfig program) = .ok (a, 255) ∧ l.get? a ≠ none ∧
      l'.get? a = l.get? a := by
  let _ := crypto
  have facts : (opening.instructions.toOption.bind fun is =>
      (Ledger.fresh.submit is opening.signers).toOption.bind fun r =>
        second.instructions.toOption.bind fun js => (r.1.submit js second.signers).toOption.map fun q =>
          decide (q.1.get? addresses[0].2 ≠ r.1.get? addresses[0].2 ∧ r.1.get? addresses[1].2 ≠ none)) =
      some true := by decide +kernel
  obtain ⟨is, opened, rest⟩ := Option.bind_eq_some_iff.1 facts
  obtain ⟨⟨l, e⟩, first, rest⟩ := Option.bind_eq_some_iff.1 rest
  obtain ⟨js, asked, rest⟩ := Option.bind_eq_some_iff.1 rest
  obtain ⟨⟨l', f⟩, done, rest⟩ := Option.map_eq_some_iff.1 rest
  obtain ⟨counted, configured⟩ := of_decide_eq_true rest
  have asked : second.instructions = .ok js := toOption_eq_some.1 asked
  have done : l.submit js second.signers = .ok (l', f) := toOption_eq_some.1 done
  have legacy := address_of addresses[0] (List.getElem_mem _)
  have words := address_of addresses[1] (List.getElem_mem _)
  have inside : second.Over Set.univ := by simp [Submission.Over, second, Operation.Over]
  have apart : ∀ o ∈ second.operations, o.program ≠ program ∨ o.generation? ≠ some .subscription := by
    simp [second, Operation.generation?, Command.generation?]
  obtain ⟨_, listed, kept⟩ := Ledger.changes_declared
  have same := (kept Set.univ distinct (.coordinatorConfig program) _ _ (by simp) words).2 l second js l' f
    inside asked done apart
  exact ⟨is, l, e, js, l', f, toOption_eq_some.1 opened, toOption_eq_some.1 first, asked, done,
    ⟨_, legacy, counted, listed l second js l' f _ asked done counted⟩, _, words, configured, same⟩

end Recorded

end Randomness
