import Randomness.Proofs.Lifecycle

/-!
What is booked on a subscription: its creation, its funds, its requests and its cancellation. One command
does at most one of these, and changes balance and number of requests accordingly.
-/

namespace Randomness

/-- What a command can mean for a subscription's account. -/
inductive Booking where
  | created
  | funded (amount : UInt64)
  | ordered (words : UInt32)
  | cancelled
  deriving DecidableEq

namespace Booking

/-- What is paid in. -/
def deposit : Booking → Nat
  | funded amount => amount.toNat
  | _ => 0

/-- How many words are paid for. -/
def words : Booking → Nat
  | ordered words => words.toNat
  | _ => 0

def isOrder : Booking → Bool
  | ordered _ => true
  | _ => false

end Booking

/-- What a command books on a subscription. -/
def Command.booking? (id : UInt64) : Command → Option Booking
  | createSubscription _ i => if i = id then some .created else none
  | fundSubscription _ i amount => if i = id then some (.funded amount) else none
  | requestRandomWords _ order => if order.subscriptionId = id then some (.ordered order.numWords) else none
  | cancelSubscription _ i => if i = id then some .cancelled else none
  | _ => none

theorem Command.booking?_of_not_written {P : Address} {id : UInt64} {c : Command}
    (unwritten : Site.subscription P id ∉ c.writes P) : c.booking? id = none := by
  cases c <;> simp_all [writes, booking?, eq_comm]

/-- The id of the subscription that a command creates. -/
def Command.created? : Command → Option UInt64
  | createSubscription _ id => some id
  | _ => none

theorem Command.created?_of_not_written {P : Address} {c : Command}
    (unwritten : Site.coordinatorConfig P ∉ c.writes P) : c.created? = none := by
  cases c <;> simp_all [writes, created?]

namespace Operation

/-- What the coordinator at `P` is told. Nobody is told what is for the signature's program. -/
def told? (P : Address) : Operation → Option Command
  | command Q c => if P = Q ∧ Q ≠ Instruction.signatureProgram then some c else none
  | signature _ _ => none

def booking? (P : Address) (id : UInt64) (o : Operation) : Option Booking :=
  (o.told? P).bind (Command.booking? id)

def created? (P : Address) (o : Operation) : Option UInt64 := (o.told? P).bind Command.created?

theorem told?_command {P Q : Address} {c : Command} (proper : P ≠ Instruction.signatureProgram) :
    (command P c).told? Q = if Q = P then some c else none := by
  simp [told?, proper]

theorem created?_of_booking? {o : Operation} {P : Address} {id : UInt64}
    (h : o.booking? P id = some .created) :
    o.created? P = some id := by
  obtain ⟨c, told, booked⟩ := Option.bind_eq_some_iff.1 h
  refine Option.bind_eq_some_iff.2 ⟨c, told, ?_⟩
  cases c with
  | createSubscription owner i =>
    obtain ⟨rfl, _⟩ := Option.ite_none_right_eq_some.1 booked
    rfl
  | fundSubscription | requestRandomWords | cancelSubscription =>
    obtain ⟨_, other⟩ := Option.ite_none_right_eq_some.1 booked
    cases other
  | _ => cases booked

end Operation

namespace Registry

/-- The configuration's counter of subscriptions; zero before there is one. -/
def subscriptionCount (σ : Registry) (P : Address) : Nat :=
  (σ (.coordinatorConfig P)).elim 0 fun c => c.subscriptionCounter.toNat

/-- The price of one word; zero before there is one. -/
def feePerWord (σ : Registry) (P : Address) : Nat :=
  (σ (.coordinatorConfig P)).elim 0 fun c => c.feePerWord.toNat

section

variable {σ : Registry} {P : Address}

theorem subscriptionCount_of_config {c : CoordinatorConfig} (h : σ (.coordinatorConfig P) = some c) :
    σ.subscriptionCount P = c.subscriptionCounter.toNat := by
  rw [subscriptionCount, h]
  rfl

theorem subscriptionCount_of_vacant (h : σ (.coordinatorConfig P) = none) : σ.subscriptionCount P = 0 := by
  rw [subscriptionCount, h]
  rfl

theorem feePerWord_of_config {c : CoordinatorConfig} (h : σ (.coordinatorConfig P) = some c) :
    σ.feePerWord P = c.feePerWord.toNat := by
  rw [feePerWord, h]
  rfl

theorem subscriptionCount_congr {τ : Registry} (same : τ (.coordinatorConfig P) = σ (.coordinatorConfig P)) :
    τ.subscriptionCount P = σ.subscriptionCount P := by
  simp only [subscriptionCount, same]

end

end Registry

/-- What a booking does to a subscription, when a word costs `fee`. -/
inductive Subscription.Turn (fee : Nat) : Option Booking → Option Subscription → Option Subscription → Prop
  | kept (s : Option Subscription) : Turn fee none s s
  | counted {sub : Subscription} (consumers : UInt32) :
      Turn fee none (some sub) (some { sub with consumerCount := consumers })
  | created {sub : Subscription} (empty : sub.balance = 0) (unused : sub.reqCount = 0) :
      Turn fee (some .created) none (some sub)
  | funded {sub : Subscription} {amount : UInt64} (fits : sub.balance.toNat + amount.toNat < UInt64.size) :
      Turn fee (some (.funded amount)) (some sub) (some { sub with balance := sub.balance + amount })
  | ordered {sub : Subscription} {words : UInt32} {price count : UInt64}
      (exact : price.toNat = fee * words.toNat) (paid : price ≤ sub.balance)
      (next : Coordinator.next64 sub.reqCount = .ok count) :
      Turn fee (some (.ordered words)) (some sub)
        (some { sub with balance := sub.balance - price, reqCount := count })
  | cancelled (sub : Subscription) : Turn fee (some .cancelled) (some sub) none

/-- What a command does to a subscription, if it writes it. -/
inductive Command.Manages (σ : Registry) (P : Address) (id : UInt64) :
    Command → Option Subscription → Option Subscription → Prop
  | created {owner : Address} {s : Subscription} (own : s.owner = owner) (empty : s.balance = 0)
      (unused : s.reqCount = 0) : Manages σ P id (.createSubscription owner id) none (some s)
  | funded {funder : Address} {amount : UInt64} {s : Subscription}
      (fits : s.balance.toNat + amount.toNat < UInt64.size) :
      Manages σ P id (.fundSubscription funder id amount) (some s) (some { s with balance := s.balance + amount })
  | counted {c : Command} {s : Subscription} {consumers : UInt32} (idle : c.booking? id = none) :
      Manages σ P id c (some s) (some { s with consumerCount := consumers })
  | ordered {requester : Address} {order : Subscriptions.WordsOrder} {s : Subscription} {price count : UInt64}
      (names : order.subscriptionId = id) (registered : σ (.registration P id order.consumerProgram) ≠ none)
      (exact : price.toNat = σ.feePerWord P * order.numWords.toNat) (paid : price ≤ s.balance)
      (next : Coordinator.next64 s.reqCount = .ok count) :
      Manages σ P id (.requestRandomWords requester order) (some s)
        (some { s with balance := s.balance - price, reqCount := count })
  | cancelled {owner : Address} {s : Subscription} (own : s.owner = owner) :
      Manages σ P id (.cancelSubscription owner id) (some s) none

namespace Subscription.Turn

variable {fee : Nat} {b : Option Booking} {before after : Option Subscription} {sub sub' : Subscription}

theorem balance (h : Turn fee b (some sub) (some sub')) :
    sub'.balance.toNat + fee * b.elim 0 Booking.words = sub.balance.toNat + b.elim 0 Booking.deposit := by
  cases h with
  | kept | counted => rfl
  | funded fits => exact (UInt64.toNat_add ..).trans (Nat.mod_eq_of_lt fits)
  | ordered exact paid next =>
    have enough := UInt64.le_iff_toNat_le.1 paid
    change (sub.balance - _).toNat + fee * UInt32.toNat _ = _
    rw [UInt64.toNat_sub_of_le _ _ paid, ← exact]
    exact Nat.sub_add_cancel enough

theorem reqCount (h : Turn fee b (some sub) (some sub')) :
    sub'.reqCount.toNat = sub.reqCount.toNat + if b.any Booking.isOrder then 1 else 0 := by
  cases h with
  | kept | counted | funded => rfl
  | ordered exact paid next => exact Coordinator.next64_eq_ok next

/-- A subscription that appears has been created, with nothing on it. -/
theorem appeared (h : Turn fee b none (some sub)) : b = some .created ∧ sub.balance = 0 ∧ sub.reqCount = 0 := by
  cases h with
  | created empty unused => exact ⟨rfl, empty, unused⟩

/-- All else is booked on a subscription that is there. -/
theorem booked (h : Turn fee b before after) : b = none ∨ b = some .created ∨ ∃ sub, before = some sub := by
  cases h with
  | kept | counted => exact .inl rfl
  | created => exact .inr (.inl rfl)
  | funded | ordered | cancelled => exact .inr (.inr ⟨_, rfl⟩)

theorem cancelled_vacant (h : Turn fee (some .cancelled) before after) : after = none := by
  cases h with
  | cancelled => rfl

end Subscription.Turn

/-- A fee that fits is the exact product. -/
theorem CoordinatorConfig.toNat_of_feeFor? {c : CoordinatorConfig} {words : UInt32} {fee : UInt64}
    (h : c.feeFor? words = some fee) : fee.toNat = c.feePerWord.toNat * words.toNat := by
  obtain ⟨fits, same⟩ := Option.ite_none_right_eq_some.1 h
  cases same
  exact UInt64.toNat_ofNat_of_lt fits

namespace Command.Does

variable [Crypto] {x : Scene} {σ : Registry} {P : Address} {c : Command} {r : Registry.Result}

/-- The id that a subscription is created with is the counter. -/
theorem created_eq (h : c.Does x σ P r) {id : UInt64} (hid : c.created? = some id) :
    id.toNat = σ.subscriptionCount P := by
  cases h with
  | createSubscription stored next vacant counted =>
    cases hid
    rw [Registry.subscriptionCount_of_config stored, next]
  | _ => cases hid

/-- The counter counts the subscriptions that are created. -/
theorem counts_subscriptions (h : c.Does x σ P r) (Q : Address) :
    r.1.subscriptionCount Q = σ.subscriptionCount Q + if Q = P ∧ c.created?.isSome then 1 else 0 := by
  by_cases written : Site.coordinatorConfig Q ∈ c.writes P
  · obtain ⟨τ, log⟩ := r
    change τ.subscriptionCount Q = _
    cases h with
    | initializeSubscription vacant =>
      obtain rfl : Q = P := by simpa [writes] using written
      rw [Registry.subscriptionCount_of_config (Registry.put_self ..),
        Registry.subscriptionCount_of_vacant vacant]
      simp [created?]
    | createSubscription stored next vacant counted =>
      obtain rfl : Q = P := by simpa [writes] using written
      rw [Registry.subscriptionCount_of_config (Registry.put_self ..),
        Registry.subscriptionCount_of_config stored]
      simpa [created?] using Coordinator.next64_eq_ok counted
    | requestRandomWords stored found registered allowed price paid next few vacant used counted =>
      obtain rfl : Q = P := by simpa [writes] using written
      rw [Registry.subscriptionCount_congr (Registry.put_of_ne _ _ (by simp)),
        Registry.subscriptionCount_of_config (Registry.put_self ..),
        Registry.subscriptionCount_of_config stored]
      simp [created?]
    | _ => simp [writes] at written
  · have quiet : ¬ (Q = P ∧ c.created?.isSome) := by
      intro held
      obtain ⟨rfl, creates⟩ := held
      rw [created?_of_not_written written] at creates
      cases creates
    rw [Registry.subscriptionCount_congr (h.frame written), if_neg quiet, Nat.add_zero]

theorem manages (h : c.Does x σ P r) {Q : Address} {id : UInt64}
    (written : Site.subscription Q id ∈ c.writes P) :
    Q = P ∧ c.Manages σ P id (σ (.subscription Q id)) (r.1 (.subscription Q id)) := by
  obtain ⟨τ, log⟩ := r
  change Q = P ∧ c.Manages σ P id _ (τ (.subscription Q id))
  cases h with
  | createSubscription stored next vacant counted =>
    obtain ⟨rfl, rfl⟩ : Q = P ∧ id = _ := by simpa [writes] using written
    rw [Registry.put_of_ne _ _ (by simp), Registry.put_self, vacant]
    exact ⟨rfl, .created rfl rfl rfl⟩
  | fundSubscription found fits =>
    obtain ⟨rfl, rfl⟩ : Q = P ∧ id = _ := by simpa [writes] using written
    rw [Registry.put_self, found]
    exact ⟨rfl, .funded fits⟩
  | addConsumer found own vacant counted =>
    obtain ⟨rfl, rfl⟩ : Q = P ∧ id = _ := by simpa [writes] using written
    rw [Registry.put_self, found]
    exact ⟨rfl, .counted rfl⟩
  | removeConsumer found own registered counted =>
    obtain ⟨rfl, rfl⟩ : Q = P ∧ id = _ := by simpa [writes] using written
    rw [Registry.put_self, found]
    exact ⟨rfl, .counted rfl⟩
  | cancelSubscription found own unused =>
    obtain ⟨rfl, rfl⟩ : Q = P ∧ id = _ := by simpa [writes] using written
    rw [Registry.drop_self, found]
    exact ⟨rfl, .cancelled own⟩
  | requestRandomWords stored found registered allowed price paid next few vacant used counted =>
    obtain ⟨rfl, rfl⟩ : Q = P ∧ id = _ := by simpa [writes] using written
    rw [Registry.put_self, found]
    refine ⟨rfl, .ordered rfl (by simp [registered]) ?_ paid used⟩
    rw [Registry.feePerWord_of_config stored]
    exact CoordinatorConfig.toNat_of_feeFor? price
  | _ => simp [writes] at written

theorem subscription_turn (h : c.Does x σ P r) (Q : Address) (id : UInt64) :
    Subscription.Turn (σ.feePerWord Q) (if Q = P then c.booking? id else none) (σ (.subscription Q id))
      (r.1 (.subscription Q id)) := by
  by_cases written : Site.subscription Q id ∈ c.writes P
  · obtain ⟨rfl, manages⟩ := h.manages written
    rw [if_pos rfl]
    generalize σ (.subscription Q id) = before at manages ⊢
    generalize r.1 (.subscription Q id) = after at manages ⊢
    cases manages with
    | created own empty unused => simpa [booking?] using .created empty unused
    | funded fits => simpa [booking?] using .funded fits
    | counted idle => simpa [idle] using .counted _
    | ordered names registered exact paid next => simpa [booking?, names] using .ordered exact paid next
    | cancelled own => simpa [booking?] using .cancelled _
  · have idle : (if Q = P then c.booking? id else none) = none := by
      refine ite_eq_right_iff.2 fun own => ?_
      subst own
      exact booking?_of_not_written written
    rw [h.frame written, idle]
    exact .kept _

end Command.Does

namespace Operation

variable [Crypto] {x : Scene} {σ : Registry} {o : Operation} {r : Registry.Result}

theorem does_of_step {P : Address} {c : Command} (proper : P ≠ Instruction.signatureProgram)
    (h : (command P c).step x σ = some r) : c.Does x σ P r := by
  rw [step, if_neg proper] at h
  exact Command.does_of_effect (Option.ite_none_right_eq_some.1 h).2

/-- An accepted operation changes nothing and tells nobody, or does what it tells one coordinator. -/
theorem told_cases (h : o.step x σ = some r) :
    (r.1 = σ ∧ ∀ P, o.told? P = none) ∨
      ∃ P c, (∀ Q, o.told? Q = if Q = P then some c else none) ∧ c.Does x σ P r := by
  cases o with
  | signature secret message =>
    cases h
    exact .inl ⟨rfl, fun P => rfl⟩
  | command P c =>
    rw [step] at h
    split at h
    · next same =>
      cases h
      exact .inl ⟨rfl, fun Q => if_neg fun both => both.2 same⟩
    · next proper =>
      obtain ⟨_, h⟩ := Option.ite_none_right_eq_some.1 h
      exact .inr ⟨P, c, fun Q => told?_command proper, Command.does_of_effect h⟩

theorem created_eq (h : o.step x σ = some r) {P : Address} {id : UInt64} (hid : o.created? P = some id) :
    id.toNat = σ.subscriptionCount P := by
  obtain ⟨c, told, created⟩ := Option.bind_eq_some_iff.1 hid
  rcases told_cases h with ⟨_, nothing⟩ | ⟨Q, d, tells, does⟩
  · rw [nothing] at told
    cases told
  · rw [tells, Option.ite_none_right_eq_some] at told
    obtain ⟨rfl, same⟩ := told
    cases same
    exact does.created_eq created

theorem counts_subscriptions (h : o.step x σ = some r) (P : Address) :
    r.1.subscriptionCount P = σ.subscriptionCount P + if (o.created? P).isSome then 1 else 0 := by
  rcases told_cases h with ⟨same, nothing⟩ | ⟨Q, c, tells, does⟩
  · simp [created?, same, nothing]
  · rw [does.counts_subscriptions P, created?, tells]
    by_cases same : P = Q <;> simp [same]

theorem subscription_turn (h : o.step x σ = some r) (P : Address) (id : UInt64) :
    Subscription.Turn (σ.feePerWord P) (o.booking? P id) (σ (.subscription P id))
      (r.1 (.subscription P id)) := by
  rcases told_cases h with ⟨same, nothing⟩ | ⟨Q, c, tells, does⟩
  · rw [booking?, nothing, same]
    exact .kept _
  · have booked : o.booking? P id = if P = Q then c.booking? id else none := by
      rw [booking?, tells]
      by_cases same : P = Q <;> simp [same]
    rw [booked]
    exact does.subscription_turn P id

end Operation

end Randomness
