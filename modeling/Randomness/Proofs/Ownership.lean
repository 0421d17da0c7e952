import Randomness.Proofs.Accounting
import Randomness.Proofs.Annals

/-!
Who manages a subscription: the key that signed its creation. Others can pay into it, and only registered
consumers spend from it.
-/

namespace Randomness

section

variable [Crypto] {keys : Set Address} {P : Address} {id : UInt64}

/-- A deed creates a subscription, with the signature of its owner. -/
structure Deed.Opens (d : Deed) (P : Address) (id : UInt64) (owner : Address) : Prop where
  made : Subscriptions.createSubscription P owner id = .ok d.instruction
  signed : owner ∈ d.signers
  vacant : d.before.records (.subscription P id) = none
  stored : ∃ s, d.after.records (.subscription P id) = some s ∧ s.owner = owner

/-- What a deed needs for what it does to a subscription. -/
structure Deed.Heeds (d : Deed) (P : Address) (id : UInt64) : Prop where
  opened : ∀ s, d.before.records (.subscription P id) = none → d.after.records (.subscription P id) = some s →
    d.Opens P id s.owner
  kept : ∀ s s', d.before.records (.subscription P id) = some s →
    d.after.records (.subscription P id) = some s' → s'.owner = s.owner
  /-- Only a request of a registered consumer costs something. -/
  charged : ∀ s s', d.before.records (.subscription P id) = some s →
    d.after.records (.subscription P id) = some s' → s'.balance < s.balance →
      ∃ requester, ∃ order : Subscriptions.WordsOrder, order.subscriptionId = id ∧
        Subscriptions.requestRandomWords P requester order = .ok d.instruction ∧
        order.consumerProgram ∈ d.before.consumers P id
  removed : ∀ s, d.before.records (.subscription P id) = some s →
    d.after.records (.subscription P id) = none → s.owner ∈ d.signers
  /-- A registration appears or disappears. -/
  registered : ∀ consumer, (consumer ∈ d.after.consumers P id ↔ consumer ∉ d.before.consumers P id) →
    ∃ s, d.before.records (.subscription P id) = some s ∧ s.owner ∈ d.signers

namespace Deed.Done

variable {d : Deed} {σ τ : Registry} {s s' : Subscription}

theorem opens (h : d.Done keys σ τ) (hP : P ∈ keys) (vacant : σ (.subscription P id) = none)
    (stored : τ (.subscription P id) = some s) : d.Opens P id s.owner := by
  have within : (Site.subscription P id).Over keys := by simpa using hP
  have before := h.before.records_eq within
  have after := h.after.records_eq within
  rcases h.manages P id with same | ⟨c, made, signed, manages⟩
  · rw [same, vacant] at stored
    cases stored
  · rw [vacant, stored] at manages
    cases manages with
    | created own =>
      subst own
      exact ⟨made, signed, before.trans vacant, s, after.trans stored, rfl⟩

/-- The owner stays, and only a request of a registered consumer costs something. -/
theorem keeps (h : d.Done keys σ τ) (hP : P ∈ keys) (found : σ (.subscription P id) = some s)
    (left : τ (.subscription P id) = some s') : s'.owner = s.owner ∧ (s'.balance < s.balance →
      ∃ requester, ∃ order : Subscriptions.WordsOrder, order.subscriptionId = id ∧
        Subscriptions.requestRandomWords P requester order = .ok d.instruction ∧
        order.consumerProgram ∈ d.before.consumers P id) := by
  rcases h.manages P id with same | ⟨c, made, signed, manages⟩
  · rw [same, found] at left
    cases left
    exact ⟨rfl, fun less => absurd less (UInt64.lt_irrefl _)⟩
  · rw [found, left] at manages
    cases manages with
    | funded fits =>
      refine ⟨rfl, fun less => absurd less (UInt64.not_lt.2 ?_)⟩
      rw [UInt64.le_iff_toNat_le, UInt64.toNat_add, Nat.mod_eq_of_lt fits]
      exact Nat.le_add_right ..
    | counted => exact ⟨rfl, fun less => absurd less (UInt64.lt_irrefl _)⟩
    | ordered names registered =>
      exact ⟨rfl, fun _ => ⟨_, _, names, made, (h.before.mem_consumers hP).2 registered⟩⟩

theorem removes (h : d.Done keys σ τ) (found : σ (.subscription P id) = some s)
    (gone : τ (.subscription P id) = none) : s.owner ∈ d.signers := by
  rcases h.manages P id with same | ⟨c, made, signed, manages⟩
  · rw [same, found] at gone
    cases gone
  · rw [found, gone] at manages
    cases manages with
    | cancelled own =>
      subst own
      exact signed

theorem heeds (h : d.Done keys σ τ) (hP : P ∈ keys) : d.Heeds P id := by
  have within : (Site.subscription P id).Over keys := by simpa using hP
  have before := h.before.records_eq within
  have after := h.after.records_eq within
  constructor
  · rw [before, after]
    exact fun s vacant stored => h.opens hP vacant stored
  · rw [before, after]
    exact fun s s' found left => (h.keeps hP found left).1
  · rw [before, after]
    exact fun s s' found left => (h.keeps hP found left).2
  · rw [before, after]
    exact fun s found gone => h.removes found gone
  · intro consumer changed
    rw [h.after.mem_consumers hP, h.before.mem_consumers hP] at changed
    have other : τ (.registration P id consumer) ≠ σ (.registration P id consumer) := by
      intro same
      rw [same] at changed
      exact iff_not_self changed
    rw [before]
    exact h.registers other

end Deed.Done

/-- A subscription that is there has been created, with the signature of its owner. -/
theorem Led.opened {σ : Registry} {D : List Deed} (h : Led keys σ D) (hP : P ∈ keys) {s : Subscription}
    (stored : σ (.subscription P id) = some s) : ∃ d ∈ D, d.Opens P id s.owner := by
  induction h generalizing s with
  | start => cases stored
  | @snoc σ τ D d led done ih =>
    cases found : σ (.subscription P id) with
    | none => exact ⟨d, List.mem_append_right D List.mem_cons_self, done.opens hP found stored⟩
    | some q =>
      obtain ⟨e, he, opens⟩ := ih found
      rw [(done.keeps hP found stored).1]
      exact ⟨e, List.mem_append_left _ he, opens⟩

/-- Only the owner manages a subscription. Whatever transactions were submitted to a fresh ledger: each
subscription has been created with the signature of its owner, who never changes; only with this signature
it is cancelled, and consumers are registered with it and removed from it; and its balance only goes down for a
request that names one of the consumers registered with it at that moment. -/
theorem Ledger.owner_manages (distinct : DistinctAddresses keys) (ts : List Submission)
    (inside : ∀ t ∈ ts, t.Over keys) (hP : P ∈ keys) (id : UInt64) :
    (∀ s, (history ts).1.accounts.records (.subscription P id) = some s →
      ∃ d ∈ fresh.annals ts, d.Opens P id s.owner) ∧
    ∀ d ∈ fresh.annals ts, d.Heeds P id := by
  obtain ⟨σ, backed, led⟩ := reached distinct ts inside
  refine ⟨fun s stored => ?_, fun d hd => ?_⟩
  · rw [backed.records_eq (by simpa using hP)] at stored
    exact led.opened hP stored
  · obtain ⟨ρ, ρ', done⟩ := led.done_of_mem hd
    exact done.heeds hP

end

namespace Recorded

/-- The subscription has been created by its owner, and was managed by nobody else until it was cancelled. -/
theorem ordered_heeds :
    let _ := crypto
    (∃ d ∈ Ledger.fresh.annals ordered, d.Opens program 0 consumer) ∧
      ∀ d ∈ Ledger.fresh.annals (ordered ++ [leaving]), d.Heeds program 0 := by
  intro _
  have inside : ∀ t ∈ ordered ++ [leaving], t.Over Set.univ := by
    simp [Submission.Over, ordered, leaving, ordering, offering, Operation.Over]
  have apart : DistinctAddresses Set.univ := distinct
  obtain ⟨opened, _⟩ := Ledger.owner_manages apart ordered (fun t ht => inside t (List.mem_append_left _ ht))
    (Set.mem_univ program) 0
  obtain ⟨_, heeds⟩ := Ledger.owner_manages apart (ordered ++ [leaving]) inside (Set.mem_univ program) 0
  refine ⟨?_, heeds⟩
  have owner : ((Ledger.history ordered).1.accounts.records (.subscription program 0)).map Subscription.owner =
      some consumer := by decide +kernel
  obtain ⟨s, stored, same⟩ := Option.map_eq_some_iff.1 owner
  rw [← same]
  exact opened s stored

end Recorded

end Randomness
