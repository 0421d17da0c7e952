import Mathlib.Data.Finset.Card
import Randomness.Proofs.Lifecycle

/-!
The consumers of a subscription: it counts those that are registered with it, and has none before it is
created or after it was cancelled.
-/

namespace Randomness

theorem Coordinator.next32_eq_ok {m n : UInt32} (h : next32 m = .ok n) : n.toNat = m.toNat + 1 := by
  unfold next32 at h
  split at h
  · next fits =>
    cases h
    exact (UInt32.toNat_add m 1).trans (Nat.mod_eq_of_lt fits)
  · cases h

theorem Coordinator.one_le_iff {n : UInt32} : 1 ≤ n ↔ n ≠ 0 := by
  rw [UInt32.le_iff_toNat_le, Ne, ← UInt32.toNat_inj]
  exact Nat.one_le_iff_ne_zero

theorem Coordinator.previous32_eq_ok {m n : UInt32} (h : previous32 m = .ok n) : n.toNat + 1 = m.toNat := by
  unfold previous32 at h
  split at h
  · cases h
  · next positive =>
    cases h
    have one := one_le_iff.2 positive
    rw [UInt32.toNat_sub_of_le m 1 one]
    exact Nat.sub_add_cancel (UInt32.le_iff_toNat_le.1 one)

namespace Registry

/-- How many consumers a subscription says it has; zero if there is none. -/
def consumerCount (σ : Registry) (P : Address) (id : UInt64) : Nat :=
  (σ (.subscription P id)).elim 0 fun sub => sub.consumerCount.toNat

/-- Every subscription has as many consumers as it says. -/
def Counted (σ : Registry) : Prop :=
  ∀ P id, ∃ consumers : Finset Address, (∀ c, c ∈ consumers ↔ σ (.registration P id c) ≠ none) ∧
    consumers.card = σ.consumerCount P id

section

variable {σ τ : Registry} {P : Address} {id : UInt64} {t : Site}

theorem consumerCount_of_subscription {sub : Subscription} (h : σ (.subscription P id) = some sub) :
    σ.consumerCount P id = sub.consumerCount.toNat := by
  rw [consumerCount, h]
  rfl

theorem consumerCount_of_vacant (h : σ (.subscription P id) = none) : σ.consumerCount P id = 0 := by
  rw [consumerCount, h]
  rfl

theorem consumerCount_put_of_ne (r : t.kind.Record) (h : Site.subscription P id ≠ t) :
    (σ.put t r).consumerCount P id = σ.consumerCount P id := by
  simp only [consumerCount, put_of_ne σ r h]

theorem consumerCount_drop_of_ne (h : Site.subscription P id ≠ t) :
    (σ.drop t).consumerCount P id = σ.consumerCount P id := by
  simp only [consumerCount, drop_of_ne σ h]

theorem consumerCount_put_subscription (Q : Address) (i : UInt64) (sub : Subscription) :
    (σ.put (.subscription Q i) sub).consumerCount P id =
      if P = Q ∧ id = i then sub.consumerCount.toNat else σ.consumerCount P id := by
  by_cases same : Site.subscription P id = .subscription Q i
  · cases same
    rw [if_pos ⟨rfl, rfl⟩, consumerCount_of_subscription (put_self ..)]
  · rw [consumerCount_put_of_ne sub same, if_neg]
    intro held
    obtain ⟨rfl, rfl⟩ := held
    exact same rfl

/-- A subscription that is stored again with its old count counts as before. -/
theorem consumerCount_put_same {Q : Address} {i : UInt64} {sub : Subscription}
    (h : sub.consumerCount.toNat = σ.consumerCount Q i) :
    (σ.put (.subscription Q i) sub).consumerCount P id = σ.consumerCount P id := by
  rw [consumerCount_put_subscription]
  split
  · next same =>
    obtain ⟨rfl, rfl⟩ := same
    exact h
  · rfl

theorem Counted.congr (h : σ.Counted)
    (registrations : ∀ P id c, τ (.registration P id c) = σ (.registration P id c))
    (counts : ∀ P id, τ.consumerCount P id = σ.consumerCount P id) : τ.Counted := by
  intro P id
  simp only [registrations, counts]
  exact h P id

theorem Counted.empty : empty.Counted := fun _ _ => ⟨∅, by simp [Registry.empty], rfl⟩

/-- There is no registration without its subscription. -/
theorem Counted.subscribed (h : σ.Counted) {c : Address} (registered : σ (.registration P id c) ≠ none) :
    ∃ sub, σ (.subscription P id) = some sub := by
  obtain ⟨consumers, mem, card⟩ := h P id
  apply Option.ne_none_iff_exists'.1
  intro vacant
  rw [consumerCount_of_vacant vacant, Finset.card_eq_zero] at card
  have member := (mem c).2 registered
  rw [card] at member
  exact Finset.notMem_empty c member

/-- A subscription with a consumer counts at least one. -/
theorem Counted.positive (h : σ.Counted) {c : Address} (registered : σ (.registration P id c) ≠ none)
    {sub : Subscription} (found : σ (.subscription P id) = some sub) : sub.consumerCount ≠ 0 := by
  obtain ⟨consumers, mem, card⟩ := h P id
  intro none
  rw [consumerCount_of_subscription found, none] at card
  have member := (mem c).2 registered
  rw [Finset.card_eq_zero.1 card] at member
  exact Finset.notMem_empty c member

theorem Counted.add (h : σ.Counted) {consumer : Address} {r : ConsumerRegistration} {sub : Subscription}
    (vacant : σ (.registration P id consumer) = none)
    (count : sub.consumerCount.toNat = σ.consumerCount P id + 1) :
    ((σ.put (.registration P id consumer) r).put (.subscription P id) sub).Counted := by
  intro Q i
  obtain ⟨consumers, mem, card⟩ := h Q i
  rw [consumerCount_put_subscription, consumerCount_put_of_ne _ (by simp)]
  by_cases same : Q = P ∧ i = id
  · obtain ⟨rfl, rfl⟩ := same
    refine ⟨insert consumer consumers, ?_, ?_⟩
    · intro c
      rw [Finset.mem_insert, mem, put_of_ne _ _ (by simp)]
      by_cases new : c = consumer
      · subst new
        simp
      · have other : Site.registration Q i c ≠ .registration Q i consumer := by simpa using new
        rw [put_of_ne _ _ other]
        simp [new]
    · have new : consumer ∉ consumers := fun old => (mem consumer).1 old vacant
      rw [Finset.card_insert_of_notMem new, card, if_pos ⟨rfl, rfl⟩, count]
  · refine ⟨consumers, ?_, by rw [card, if_neg same]⟩
    intro c
    have other : Site.registration Q i c ≠ .registration P id consumer := by
      intro e
      cases e
      exact same ⟨rfl, rfl⟩
    rw [mem, put_of_ne _ _ (by simp), put_of_ne _ _ other]

theorem Counted.remove (h : σ.Counted) {consumer : Address} {sub : Subscription}
    (registered : σ (.registration P id consumer) ≠ none)
    (count : sub.consumerCount.toNat + 1 = σ.consumerCount P id) :
    ((σ.drop (.registration P id consumer)).put (.subscription P id) sub).Counted := by
  intro Q i
  obtain ⟨consumers, mem, card⟩ := h Q i
  rw [consumerCount_put_subscription, consumerCount_drop_of_ne (by simp)]
  by_cases same : Q = P ∧ i = id
  · obtain ⟨rfl, rfl⟩ := same
    refine ⟨consumers.erase consumer, ?_, ?_⟩
    · intro c
      rw [Finset.mem_erase, mem, put_of_ne _ _ (by simp)]
      by_cases gone : c = consumer
      · subst gone
        simp
      · have other : Site.registration Q i c ≠ .registration Q i consumer := by simpa using gone
        rw [drop_of_ne _ other]
        simp [gone]
    · rw [Finset.card_erase_of_mem ((mem consumer).2 registered), card, if_pos ⟨rfl, rfl⟩]
      omega
  · refine ⟨consumers, ?_, by rw [card, if_neg same]⟩
    intro c
    have other : Site.registration Q i c ≠ .registration P id consumer := by
      intro e
      cases e
      exact same ⟨rfl, rfl⟩
    rw [mem, put_of_ne _ _ (by simp), drop_of_ne _ other]

end

end Registry

/-- What a command does keeps the consumers counted. -/
theorem Command.Does.counted [Crypto] {x : Scene} {σ : Registry} {P : Address} {c : Command}
    {r : Registry.Result} (h : c.Does x σ P r) (start : σ.Counted) : r.1.Counted := by
  obtain ⟨τ, log⟩ := r
  change τ.Counted
  cases h with
  | initializeLegacy | fulfillRandomness | consumeRandomness | initializeSubscription =>
    refine start.congr (fun _ _ _ => Registry.put_of_ne _ _ (by simp)) fun _ _ => ?_
    exact Registry.consumerCount_put_of_ne _ (by simp)
  | closeRequest | fulfillRandomWords =>
    refine start.congr (fun _ _ _ => Registry.drop_of_ne _ (by simp)) fun _ _ => ?_
    exact Registry.consumerCount_drop_of_ne (by simp)
  | requestRandomness =>
    refine start.congr (fun _ _ _ => ?_) fun _ _ => ?_
    · rw [Registry.put_of_ne _ _ (by simp), Registry.put_of_ne _ _ (by simp)]
    · rw [Registry.consumerCount_put_of_ne _ (by simp), Registry.consumerCount_put_of_ne _ (by simp)]
  | createSubscription stored next vacant counted =>
    refine start.congr (fun _ _ _ => ?_) fun _ _ => ?_
    · rw [Registry.put_of_ne _ _ (by simp), Registry.put_of_ne _ _ (by simp)]
    · rw [Registry.consumerCount_put_of_ne _ (by simp)]
      exact Registry.consumerCount_put_same (Registry.consumerCount_of_vacant vacant).symm
  | fundSubscription found fits =>
    refine start.congr (fun _ _ _ => Registry.put_of_ne _ _ (by simp)) fun _ _ => ?_
    exact Registry.consumerCount_put_same (Registry.consumerCount_of_subscription found).symm
  | addConsumer found own vacant counted =>
    apply start.add vacant
    rw [Registry.consumerCount_of_subscription found]
    exact Coordinator.next32_eq_ok counted
  | removeConsumer found own registered counted =>
    apply start.remove (by simp [registered])
    rw [Registry.consumerCount_of_subscription found]
    exact Coordinator.previous32_eq_ok counted
  | cancelSubscription found own unused =>
    rename_i id _
    refine start.congr (fun _ _ _ => Registry.drop_of_ne _ (by simp)) fun Q i => ?_
    by_cases same : Site.subscription Q i = .subscription P id
    · cases same
      rw [Registry.consumerCount_of_subscription found, unused]
      exact Registry.consumerCount_of_vacant (Registry.drop_self ..)
    · exact Registry.consumerCount_drop_of_ne same
  | requestRandomWords stored found registered allowed price paid next few vacant used counted =>
    refine start.congr (fun _ _ _ => ?_) fun _ _ => ?_
    · rw [Registry.put_of_ne _ _ (by simp), Registry.put_of_ne _ _ (by simp),
        Registry.put_of_ne _ _ (by simp)]
    · rw [Registry.consumerCount_put_same, Registry.consumerCount_put_of_ne _ (by simp),
        Registry.consumerCount_put_of_ne _ (by simp)]
      rw [Registry.consumerCount_put_of_ne _ (by simp), Registry.consumerCount_put_of_ne _ (by simp)]
      exact (Registry.consumerCount_of_subscription found).symm

/-- Consumers only come and go with the signature of the subscription's owner. -/
theorem Command.Does.registers [Crypto] {x : Scene} {σ : Registry} {P : Address} {c : Command}
    {r : Registry.Result} (h : c.Does x σ P r) {Q : Address} {id : UInt64} {consumer : Address}
    (changed : r.1 (.registration Q id consumer) ≠ σ (.registration Q id consumer)) :
    Q = P ∧ ∃ s, σ (.subscription P id) = some s ∧ s.owner = c.signer := by
  have written : Site.registration Q id consumer ∈ c.writes P := by
    by_contra other
    exact changed (h.frame other)
  cases h with
  | addConsumer found own vacant counted =>
    obtain ⟨rfl, rfl, rfl⟩ : Q = P ∧ id = _ ∧ consumer = _ := by simpa [Command.writes] using written
    exact ⟨rfl, _, found, own⟩
  | removeConsumer found own registered counted =>
    obtain ⟨rfl, rfl, rfl⟩ : Q = P ∧ id = _ ∧ consumer = _ := by simpa [Command.writes] using written
    exact ⟨rfl, _, found, own⟩
  | _ => simp [Command.writes] at written

theorem Operation.counted [Crypto] {x : Scene} {σ : Registry} {o : Operation} {r : Registry.Result}
    (h : o.step x σ = some r) (start : σ.Counted) : r.1.Counted := by
  rcases step_cases h with ⟨rfl, _⟩ | ⟨P, c, _, _, _, does⟩
  · exact start
  · exact does.counted start

end Randomness
