import Randomness.Proofs.Transition

/-!
What a command leaves alone: all sites but the few that it may write.
-/

namespace Randomness

/-- The sites that a command may write. -/
def Command.writes (P : Address) : Command → List Site
  | initializeLegacy _ _ _ _ => [.legacyConfig P]
  | requestRandomness _ _ _ id _ => [.legacyRequest P id, .legacyConfig P]
  | fulfillRandomness _ id _ | consumeRandomness _ id | closeRequest _ id => [.legacyRequest P id]
  | initializeSubscription _ _ _ _ => [.coordinatorConfig P]
  | createSubscription _ id => [.subscription P id, .coordinatorConfig P]
  | fundSubscription _ id _ | cancelSubscription _ id => [.subscription P id]
  | addConsumer _ id consumer | removeConsumer _ id consumer =>
    [.registration P id consumer, .subscription P id]
  | requestRandomWords _ order =>
    [.wordsRequest P order.requestId, .coordinatorConfig P, .subscription P order.subscriptionId]
  | fulfillRandomWords _ stored _ => [.wordsRequest P stored.requestId]
  | updateLegacy _ _ | updateSubscription _ _ | requestCompressed _ _ _ | fulfillCompressed _ _ => []

theorem Command.program_of_mem_writes {P : Address} {c : Command} {t : Site} (h : t ∈ c.writes P) :
    t.program = P := by
  cases c <;> simp only [writes, List.mem_cons, List.not_mem_nil, or_false] at h <;> grind

namespace Command.Does

variable [Crypto] {x : Scene} {σ : Registry} {P : Address} {c : Command} {r : Registry.Result}

/-- All other sites keep their records. -/
theorem frame (h : c.Does x σ P r) {t : Site} (ht : t ∉ c.writes P) : r.1 t = σ t := by
  obtain ⟨τ, log⟩ := r
  change τ t = σ t
  cases h with
  | initializeLegacy | fulfillRandomness | consumeRandomness | initializeSubscription | fundSubscription =>
    exact Registry.put_of_ne _ _ (List.ne_of_not_mem_cons ht)
  | closeRequest | cancelSubscription | fulfillRandomWords =>
    exact Registry.drop_of_ne _ (List.ne_of_not_mem_cons ht)
  | requestRandomness | createSubscription | addConsumer =>
    obtain ⟨first, rest⟩ := List.ne_and_not_mem_of_not_mem_cons ht
    rw [Registry.put_of_ne _ _ (List.ne_of_not_mem_cons rest), Registry.put_of_ne _ _ first]
  | removeConsumer =>
    obtain ⟨first, rest⟩ := List.ne_and_not_mem_of_not_mem_cons ht
    rw [Registry.put_of_ne _ _ (List.ne_of_not_mem_cons rest), Registry.drop_of_ne _ first]
  | requestRandomWords =>
    obtain ⟨first, rest⟩ := List.ne_and_not_mem_of_not_mem_cons ht
    obtain ⟨second, rest⟩ := List.ne_and_not_mem_of_not_mem_cons rest
    rw [Registry.put_of_ne _ _ (List.ne_of_not_mem_cons rest), Registry.put_of_ne _ _ second,
      Registry.put_of_ne _ _ first]

/-- A command leaves the records of other programs alone. -/
theorem elsewhere (h : c.Does x σ P r) {t : Site} (ht : t.program ≠ P) : r.1 t = σ t :=
  h.frame fun written => ht (Command.program_of_mem_writes written)

end Command.Does

end Randomness
