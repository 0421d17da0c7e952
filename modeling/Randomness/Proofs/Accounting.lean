import Mathlib.Algebra.BigOperators.Group.List.Basic
import Mathlib.Algebra.Ring.Nat
import Randomness.Proofs.Backing
import Randomness.Proofs.Booking
import Randomness.Proofs.Calm
import Randomness.Proofs.Kinds
import Randomness.Proofs.Sending

/-!
The accounts of subscriptions in the history of a ledger: each says what was booked on it and how many
consumers are registered with it, and one that was cancelled is gone for good.
-/

namespace Randomness

theorem Accounts.mem_entries_iff {s : Accounts} {a : Address} {data : Bytes} :
    (a, data) ∈ s.entries ↔ s.get? a = some data := by
  rw [Accounts.get?, List.lookup_eq_some_iff]
  constructor
  · intro mem
    obtain ⟨front, back, split⟩ := List.append_of_mem mem
    refine ⟨front, back, split, fun e he => ?_⟩
    have nodup := s.nodup
    rw [split, List.map_append, List.nodup_append] at nodup
    have apart := nodup.2.2 e.1 (List.mem_map_of_mem he) a (by simp)
    simpa using Ne.symm apart
  · rintro ⟨front, back, split, _⟩
    rw [split]
    simp

theorem Place.consumer_of_kind {p : Place} (h : p.kind = .consumerRegistration) :
    ∃ id c, p = .consumer id c := by
  cases p with
  | consumer id c => exact ⟨id, c, rfl⟩
  | subscription => cases h
  | config g | request g => cases g <;> cases h

section

variable [Crypto]

/-- The consumer whose registration with a subscription this account is. -/
def Accounts.consumerOf? (P : Address) (id : UInt64) (e : Address × Bytes) : Option Address := do
  let r ← (Kind.consumerRegistration.decode e.2).toOption
  let (a, _) ← (Site.registration P id r.programId).address.toOption
  if r.subscriptionId = id ∧ a = e.1 then some r.programId else none

/-- The consumers that have an account as registered with a subscription. -/
def Accounts.consumers (s : Accounts) (P : Address) (id : UInt64) : List Address :=
  s.entries.filterMap (consumerOf? P id)

/-- Neither the subscription nor any registration with it has an account. -/
structure Accounts.Without (s : Accounts) (P : Address) (id : UInt64) : Prop where
  vacant : ∀ a b, (Site.subscription P id).address = .ok (a, b) → s.get? a = none
  alone : s.consumers P id = []

theorem Accounts.consumerOf?_eq_some {P : Address} {id : UInt64} {e : Address × Bytes} {c : Address} :
    consumerOf? P id e = some c ↔ ∃ r b, Kind.consumerRegistration.decode e.2 = .ok r ∧
      (Site.registration P id c).address = .ok (e.1, b) ∧ r.subscriptionId = id ∧ r.programId = c := by
  simp only [consumerOf?, Option.bind_eq_bind, Option.bind_eq_some_iff, toOption_eq_some,
    Option.ite_none_right_eq_some, Option.some.injEq, Prod.exists]
  constructor
  · rintro ⟨r, read, a, b, ha, ⟨hid, rfl⟩, rfl⟩
    exact ⟨r, b, read, ha, hid, rfl⟩
  · rintro ⟨r, b, read, ha, hid, rfl⟩
    exact ⟨r, read, e.1, b, ha, ⟨hid, rfl⟩, rfl⟩

/-- No consumer is listed twice. -/
theorem Accounts.nodup_consumers (s : Accounts) (P : Address) (id : UInt64) : (s.consumers P id).Nodup := by
  refine List.Pairwise.filterMap _ ?_ (List.pairwise_map.1 s.nodup)
  intro e f apart c hc d hd same
  subst same
  obtain ⟨_, _, _, he, _⟩ := consumerOf?_eq_some.1 hc
  obtain ⟨_, _, _, hf, _⟩ := consumerOf?_eq_some.1 hd
  rw [he] at hf
  exact apart (Prod.mk.inj (Except.ok.inj hf)).1

namespace Backed

variable {keys : Set Address} {s : Accounts} {σ : Registry} {slot : UInt64} {P : Address} {id : UInt64}

/-- An account that is read as a registration is one. -/
theorem registration_read (h : Backed keys s σ slot) {a : Address} {data : Bytes} (found : s.get? a = some data)
    {r : ConsumerRegistration} (read : Kind.consumerRegistration.decode data = .ok r) :
    ∃ Q b, (Site.registration Q r.subscriptionId r.programId).address = .ok (a, b) ∧
      σ (.registration Q r.subscriptionId r.programId) = some r := by
  obtain ⟨t, q, b, stored, ha⟩ := h.fits.listed a data found
  obtain ⟨a', b', ha', found'⟩ := h.fits.stored t q stored
  rw [ha] at ha'
  cases ha'
  rw [found] at found'
  cases found'
  have alone : ¬ t.kind.PassesAs .consumerRegistration q := by
    unfold Kind.PassesAs
    split <;> simp_all
  by_cases other : t.kind ≠ .consumerRegistration
  · obtain ⟨e, unread⟩ := (Kind.exists_error_iff other q).2 alone
    rw [read] at unread
    cases unread
  · obtain ⟨Q, p⟩ := t
    obtain ⟨i, c, rfl⟩ := Place.consumer_of_kind (not_not.1 other)
    have same := Kind.decode_encode .consumerRegistration q trivial
    rw [read] at same
    cases same
    obtain ⟨rfl, rfl, _⟩ := h.fits.owned (.registration Q i c) r stored
    exact ⟨Q, b, ha, stored⟩

theorem mem_consumers (h : Backed keys s σ slot) (hP : P ∈ keys) {c : Address} :
    c ∈ s.consumers P id ↔ σ (.registration P id c) ≠ none := by
  rw [Accounts.consumers, List.mem_filterMap]
  constructor
  · rintro ⟨⟨a, data⟩, mem, listed⟩
    obtain ⟨r, b, read, ha, rfl, rfl⟩ := Accounts.consumerOf?_eq_some.1 listed
    obtain ⟨Q, b', hQ, stored⟩ := h.registration_read (Accounts.mem_entries_iff.1 mem) read
    have within := h.fits.inside (.registration Q r.subscriptionId r.programId) r stored
    have within' : (Site.registration P r.subscriptionId r.programId).Over keys :=
      Site.over_consumer.2 ⟨hP, (Site.over_consumer.1 within).2⟩
    rw [h.fits.distinct _ _ within' within a b b' ha hQ, stored]
    exact Option.some_ne_none r
  · intro registered
    obtain ⟨r, stored⟩ := Option.ne_none_iff_exists'.1 registered
    obtain ⟨a, b, ha, found⟩ := h.fits.stored _ r stored
    obtain ⟨hid, hc, _⟩ := h.fits.owned _ r stored
    have read := Kind.decode_encode .consumerRegistration r trivial
    exact ⟨(a, _), Accounts.mem_entries_iff.2 found,
      Accounts.consumerOf?_eq_some.2 ⟨r, b, read, ha, hid, hc⟩⟩

/-- A subscription counts the registrations that have an account. -/
theorem length_consumers (h : Backed keys s σ slot) (hP : P ∈ keys) :
    (s.consumers P id).length = σ.consumerCount P id := by
  obtain ⟨consumers, mem, card⟩ := h.counted P id
  have same : (s.consumers P id).toFinset = consumers := by
    ext c
    rw [List.mem_toFinset, h.mem_consumers hP, mem]
  rw [← card, ← same, List.toFinset_card_of_nodup (s.nodup_consumers P id)]

theorem without (h : Backed keys s σ slot) (hP : P ∈ keys) (gone : σ (.subscription P id) = none) :
    s.Without P id where
  vacant a b ha := by
    rw [h.fits.get?_eq (by simpa using hP) ha, gone]
    rfl
  alone := by
    rw [← List.length_eq_zero_iff, h.length_consumers hP]
    exact Registry.consumerCount_of_vacant gone

theorem feePerWord_eq (h : Backed keys s σ slot) (hP : P ∈ keys) : s.records.feePerWord P = σ.feePerWord P := by
  rw [Registry.feePerWord, Registry.feePerWord, h.records_eq (by simpa using hP)]

theorem subscriptionCount_eq (h : Backed keys s σ slot) (hP : P ∈ keys) :
    s.records.subscriptionCount P = σ.subscriptionCount P := by
  rw [Registry.subscriptionCount, Registry.subscriptionCount, h.records_eq (by simpa using hP)]

end Backed

namespace Moment

variable {P : Address} {id : UInt64}

/-- What an operation pays into a subscription. -/
def deposit (P : Address) (id : UInt64) (m : Moment) : Nat := (m.operation.booking? P id).elim 0 Booking.deposit

/-- What the words cost that an operation requests from a subscription. -/
def price (P : Address) (id : UInt64) (m : Moment) : Nat :=
  m.before.records.feePerWord P * (m.operation.booking? P id).elim 0 Booking.words

def isOrder (P : Address) (id : UInt64) (m : Moment) : Bool := (m.operation.booking? P id).any Booking.isOrder

def Cancels (m : Moment) (P : Address) (id : UInt64) : Prop := m.operation.booking? P id = some .cancelled

instance (m : Moment) : Decidable (m.Cancels P id) := inferInstanceAs (Decidable (_ = _))

end Moment

/-- A subscription has what was paid in and not spent, and counts its requests. -/
structure Subscription.Books (sub : Subscription) (P : Address) (id : UInt64) (H : List Moment) : Prop where
  balance : sub.balance.toNat + (H.map (Moment.price P id)).sum = (H.map (Moment.deposit P id)).sum
  reqCount : sub.reqCount.toNat = H.countP (Moment.isOrder P id)

namespace Subscription.Books

variable {sub sub' : Subscription} {P : Address} {id : UInt64} {H : List Moment} {m : Moment}

/-- Nothing was booked before a subscription is created. -/
theorem opened (unused : ∀ n ∈ H, n.operation.booking? P id = none)
    (turn : Turn (m.before.records.feePerWord P) (m.operation.booking? P id) none (some sub)) :
    sub.Books P id (H ++ [m]) := by
  obtain ⟨new, empty, none⟩ := turn.appeared
  have prices : (H.map (Moment.price P id)).sum = 0 := by
    refine List.sum_eq_zero fun n hn => ?_
    obtain ⟨l, hl, rfl⟩ := List.mem_map.1 hn
    simp [Moment.price, unused l hl]
  have deposits : (H.map (Moment.deposit P id)).sum = 0 := by
    refine List.sum_eq_zero fun n hn => ?_
    obtain ⟨l, hl, rfl⟩ := List.mem_map.1 hn
    simp [Moment.deposit, unused l hl]
  have orders : H.countP (Moment.isOrder P id) = 0 := by
    refine List.countP_eq_zero.2 fun n hn => ?_
    simp [Moment.isOrder, unused n hn]
  constructor
  · simp [prices, deposits, empty, Moment.price, Moment.deposit, new, Booking.words, Booking.deposit]
  · simp [orders, none, Moment.isOrder, new, Booking.isOrder]

theorem step (h : sub.Books P id H)
    (turn : Turn (m.before.records.feePerWord P) (m.operation.booking? P id) (some sub) (some sub')) :
    sub'.Books P id (H ++ [m]) := by
  constructor
  · have now : sub'.balance.toNat + m.price P id = sub.balance.toNat + m.deposit P id := turn.balance
    have before := h.balance
    simp only [List.map_append, List.sum_append, List.map_singleton, List.sum_singleton]
    omega
  · have now := turn.reqCount
    rw [List.countP_append, ← h.reqCount, now, List.countP_singleton]
    rfl

end Subscription.Books

/-- The subscriptions of one coordinator, as a history has led to them. -/
structure Booked (P : Address) (σ : Registry) (H : List Moment) : Prop where
  ids : (H.filterMap fun m => m.operation.created? P).map UInt64.toNat = List.range (σ.subscriptionCount P)
  below : ∀ id sub, σ (.subscription P id) = some sub → id.toNat < σ.subscriptionCount P
  books : ∀ id sub, σ (.subscription P id) = some sub → sub.Books P id H
  unused : ∀ id, σ.subscriptionCount P ≤ id.toNat → ∀ m ∈ H, m.operation.booking? P id = none
  cancelled : ∀ id, ∀ m ∈ H, m.Cancels P id →
    id.toNat < σ.subscriptionCount P ∧ σ (.subscription P id) = none ∧ m.after.Without P id
  gone : ∀ id, H.Pairwise fun m n => m.Cancels P id → n.after.Without P id

namespace Booked

variable {keys : Set Address} {s s' : Accounts} {σ τ : Registry} {P : Address} {H : List Moment}

theorem start : Booked P Registry.empty [] where
  ids := rfl
  below := by
    intro id sub h
    cases h
  books := by
    intro id sub h
    cases h
  unused := by simp
  cancelled := by simp
  gone := fun _ => .nil

section

variable {x : Scene} {o : Operation} {log : List LogEntry} {id : UInt64}

/-- A subscription is created under the counter's number. -/
theorem created (stepped : o.step x σ = some (τ, log)) (books : o.booking? P id = some .created) :
    id.toNat = σ.subscriptionCount P ∧ τ.subscriptionCount P = σ.subscriptionCount P + 1 := by
  have new := Operation.created?_of_booking? books
  refine ⟨Operation.created_eq stepped new, ?_⟩
  rw [Operation.counts_subscriptions stepped P, new]
  rfl

theorem counter_le (stepped : o.step x σ = some (τ, log)) : σ.subscriptionCount P ≤ τ.subscriptionCount P := by
  rw [Operation.counts_subscriptions stepped P]
  exact Nat.le_add_right ..

/-- What is booked is booked on a subscription with an id below the counter. -/
theorem booked_below (h : Booked P σ H) (stepped : o.step x σ = some (τ, log)) (books : o.booking? P id ≠ none) :
    id.toNat < τ.subscriptionCount P := by
  have turn := Operation.subscription_turn stepped P id
  rcases turn.booked with none | new | ⟨sub, found⟩
  · exact absurd none books
  · obtain ⟨counter, more⟩ := created stepped new
    omega
  · exact (h.below id sub found).trans_le (counter_le stepped)

/-- A cancelled subscription is not created again, as the counter is past its id. -/
theorem still_cancelled (h : Booked P σ H) (stepped : o.step x σ = some (τ, log)) {m : Moment} (hm : m ∈ H)
    (cancels : m.Cancels P id) : τ (.subscription P id) = none := by
  obtain ⟨old, vacant, _⟩ := h.cancelled id m hm cancels
  cases found : τ (.subscription P id) with
  | none => rfl
  | some sub =>
    have turn : Subscription.Turn _ _ (σ (.subscription P id)) (τ (.subscription P id)) :=
      Operation.subscription_turn stepped P id
    rw [vacant, found] at turn
    exact absurd (created stepped turn.appeared.1).1 old.ne

end

theorem step {x : Surroundings} {o : Operation} {log : List LogEntry} (h : Booked P σ H)
    (backed : Backed keys s σ x.slot) (hP : P ∈ keys) (fits : Fits keys s' τ)
    (stepped : o.step x.scene σ = some (τ, log)) : Booked P τ (H ++ [⟨o, x.slot, s, s'⟩]) := by
  let m : Moment := ⟨o, x.slot, s, s'⟩
  have after := backed.step fits stepped
  have counts : σ.subscriptionCount P ≤ τ.subscriptionCount P := counter_le stepped
  have turn (id : UInt64) : Subscription.Turn (σ.feePerWord P) (o.booking? P id) (σ (.subscription P id))
      (τ (.subscription P id)) := Operation.subscription_turn stepped P id
  have fee := backed.feePerWord_eq hP
  refine ⟨?_, ?_, ?_, ?_, ?_, ?_⟩
  · rw [List.filterMap_append, List.map_append, h.ids, Operation.counts_subscriptions stepped P]
    cases hid : o.created? P with
    | none => simp [hid]
    | some id => simp [hid, List.range_succ, Operation.created_eq stepped hid]
  · intro id sub found
    cases old : σ (.subscription P id) with
    | some sub => exact (h.below id sub old).trans_le counts
    | none =>
      have new := turn id
      rw [old, found] at new
      exact h.booked_below stepped (by rw [new.appeared.1]; exact Option.some_ne_none _)
  · intro id sub found
    have now := turn id
    rw [found, ← fee] at now
    cases old : σ (.subscription P id) with
    | some sub =>
      rw [old] at now
      exact (h.books id sub old).step (m := m) now
    | none =>
      rw [old] at now
      refine .opened (m := m) (h.unused id ?_) now
      exact (created stepped now.appeared.1).1.ge
  · intro id above
    refine forall_mem_snoc (h.unused id (counts.trans above)) ?_
    by_contra books
    exact absurd (h.booked_below stepped books) above.not_gt
  · intro id
    refine forall_mem_snoc (fun n hn cancels => ?_) fun cancels => ?_
    · obtain ⟨old, vacant, without⟩ := h.cancelled id n hn cancels
      exact ⟨old.trans_le counts, h.still_cancelled stepped hn cancels, without⟩
    · have books : o.booking? P id = some .cancelled := cancels
      have now := turn id
      rw [books] at now
      refine ⟨h.booked_below stepped ?_, now.cancelled_vacant, after.without hP now.cancelled_vacant⟩
      rw [books]
      exact Option.some_ne_none _
  · intro id
    exact pairwise_snoc (h.gone id) fun n hn cancels => after.without hP (h.still_cancelled stepped hn cancels)

end Booked

namespace Ledger

variable {keys : Set Address}

/-- A crash of the coordinator is never one of an operation that removes a consumer. -/
theorem crash_position {x : Surroundings} {n p : Nat} {s : Accounts} {σ : Registry} {os : List Operation}
    {is : List Instruction} {f : Crash} (hf : Fits keys s σ) (counted : σ.Counted)
    (inside : ∀ o ∈ os, o.Over keys) (made : os.mapM Operation.instruction = .ok is)
    (crashed : executeFrom x n s is = .error ⟨p, .crashed f⟩) :
    ∃ k o, p = n + k ∧ os[k]? = some o ∧
      ∀ P owner id consumer, o ≠ .command P (.removeConsumer owner id consumer) := by
  induction os generalizing n s σ is with
  | nil =>
    cases made
    cases crashed
  | cons o os ih =>
    obtain ⟨i, is, hi, rest, rfl⟩ := Submission.instructions_cons_eq_ok.1 made
    have own := inside o List.mem_cons_self
    cases executed : Coordinator.execute x i s with
    | error e =>
      rw [executeFrom_cons_of_error executed] at crashed
      cases crashed
      refine ⟨0, o, rfl, rfl, ?_⟩
      rintro P owner id consumer rfl
      by_cases proper : P = Instruction.signatureProgram
      · rw [Coordinator.execute_signature ((Operation.program_of_instruction hi).trans proper)] at executed
        cases executed
      · exact Command.removeConsumer_calm hf own.1 proper (own.2 consumer rfl) hi
          (fun sub found registered => counted.positive registered found) x f executed
    | ok e =>
      obtain ⟨τ, stepped, fits⟩ := Operation.stepped_of_executed hf own hi executed
      obtain ⟨k, q, rfl, hq, other⟩ := ih fits (Operation.counted stepped counted)
        (fun q hq => inside q (List.mem_cons_of_mem o hq)) rest ((executeFrom_cons_eq_error executed).1 crashed)
      exact ⟨k + 1, q, by omega, hq, other⟩

/-- Subscriptions keep exact accounts. Whatever transactions were submitted to a fresh ledger: subscriptions
are numbered from zero in the order of their creation, as many as the counter says; each has what was paid in
and not spent on words, and counts its requests and its registrations; one that was cancelled has no
registration left and never exists again; and no count of consumers is taken below zero. -/
theorem subscriptions_balance (distinct : DistinctAddresses keys) (ts : List Submission)
    (inside : ∀ t ∈ ts, t.Over keys) {P : Address} (hP : P ∈ keys) :
    let l := (history ts).1
    let H := (history ts).2
    (H.filterMap fun m => m.operation.created? P).map UInt64.toNat =
      List.range (l.accounts.records.subscriptionCount P) ∧
    (∀ id a b data, (Site.subscription P id).address = .ok (a, b) → l.get? a = some data →
      ∃ sub, Kind.subscription.decode data = .ok sub ∧ sub.Books P id H ∧
        sub.consumerCount.toNat = (l.accounts.consumers P id).length) ∧
    (∀ id, ∀ m ∈ H, m.Cancels P id → m.after.Without P id ∧ l.accounts.Without P id) ∧
    (∀ id, H.Pairwise fun m n => m.Cancels P id → n.after.Without P id) ∧
    ∀ (t : Submission) (is : List Instruction), t.Over keys → t.instructions = .ok is → ∀ x n f,
      executeFrom x 0 l.accounts is = .error ⟨n, .crashed f⟩ →
        ∃ o, t.operations[n]? = some o ∧
          ∀ Q owner id consumer, o ≠ .command Q (.removeConsumer owner id consumer) := by
  obtain ⟨σ, _, backed, h⟩ := history_induction
    (C := fun s σ slot H => Backed keys s σ slot ∧ Booked P σ H)
    (fun x s σ H o τ log s' h _ fits _ stepped => ⟨h.1.step fits stepped, h.2.step h.1 hP fits stepped⟩)
    (fun s σ slot slot' H le h => ⟨h.1.later le, h.2⟩) distinct ⟨.empty distinct, .start⟩ ts inside
  refine ⟨?_, ?_, ?_, h.gone, ?_⟩
  · rw [h.ids, backed.subscriptionCount_eq hP]
  · intro id a b data ha found
    obtain ⟨sub, stored, read⟩ := backed.get?_eq_some (t := .subscription P id) (by simpa using hP) ha found
    refine ⟨sub, read, h.books id sub stored, ?_⟩
    rw [backed.length_consumers hP, Registry.consumerCount_of_subscription stored]
  · intro id m hm cancels
    obtain ⟨_, vacant, without⟩ := h.cancelled id m hm cancels
    exact ⟨without, backed.without hP vacant⟩
  · intro t is within made x n f crashed
    obtain ⟨k, o, rfl, ho, other⟩ := crash_position backed.fits backed.counted within made crashed
    exact ⟨o, by rwa [Nat.zero_add], other⟩

end Ledger

end

namespace Recorded

/-- A request for words. -/
def ordering (id : UInt64) (words : UInt32) : Submission where
  operations := [.command program (.requestRandomWords consumer
    { requestId := id, subscriptionId := 0, consumerProgram := consumer, numWords := words
      seed := Block.zero 32, callbackComputeLimit := 200000, callbackAccounts := [] })]
  signers := [consumer]

/-- The subscription's only consumer leaves, and it is cancelled. -/
def leaving : Submission where
  operations := [.command program (.removeConsumer consumer 0 consumer),
    .command program (.cancelSubscription consumer 0)]
  signers := [consumer]

/-- Five words at 7 each are paid out of 100. -/
def ordered : List Submission := [offering 7 100, ordering 0 2, ordering 1 3]

theorem ordered_balance :
    let _ := crypto
    (∃ a b data sub, (Site.subscription program 0).address = .ok (a, b) ∧
      (Ledger.history ordered).1.get? a = some data ∧ Kind.subscription.decode data = .ok sub ∧
      sub.balance.toNat = 65 ∧ sub.reqCount.toNat = 2 ∧ sub.consumerCount.toNat = 1) ∧
    (Ledger.history (ordered ++ [leaving])).1.accounts.Without program 0 := by
  intro _
  have inside : ∀ t ∈ ordered ++ [leaving], t.Over Set.univ := by
    simp [Submission.Over, ordered, leaving, ordering, offering, Operation.Over]
  have apart : DistinctAddresses Set.univ := distinct
  obtain ⟨_, exact, _⟩ := Ledger.subscriptions_balance apart ordered
    (fun t ht => inside t (List.mem_append_left _ ht)) (Set.mem_univ program)
  obtain ⟨_, _, gone, _⟩ := Ledger.subscriptions_balance apart (ordered ++ [leaving]) inside
    (Set.mem_univ program)
  constructor
  · have ha := address_of addresses[2] (List.getElem_mem _)
    have there : ((Ledger.history ordered).1.get? addresses[2].2).isSome = true := by decide +kernel
    obtain ⟨data, found⟩ := Option.isSome_iff_exists.1 there
    obtain ⟨sub, read, books, counted⟩ := exact 0 _ _ data ha found
    have prices : ((Ledger.history ordered).2.map (Moment.price program 0)).sum = 35 := by decide +kernel
    have deposits : ((Ledger.history ordered).2.map (Moment.deposit program 0)).sum = 100 := by decide +kernel
    have orders : (Ledger.history ordered).2.countP (Moment.isOrder program 0) = 2 := by decide +kernel
    have consumers : ((Ledger.history ordered).1.accounts.consumers program 0).length = 1 := by decide +kernel
    have balance := books.balance
    rw [prices, deposits] at balance
    refine ⟨_, _, data, sub, ha, found, read, by omega, ?_, ?_⟩
    · rw [books.reqCount, orders]
    · rw [counted, consumers]
  · have cancels : ((Ledger.history (ordered ++ [leaving])).2.any fun m =>
        m.Cancels program 0) = true := by decide +kernel
    obtain ⟨m, hm, cancelled⟩ := List.any_eq_true.1 cancels
    have cancels : m.Cancels program 0 := of_decide_eq_true cancelled
    exact (gone 0 m hm cancels).2

end Recorded

end Randomness
