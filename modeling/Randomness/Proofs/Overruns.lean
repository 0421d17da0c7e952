import Randomness.Proofs.Accounting
import Randomness.Proofs.Crashes
import Randomness.Proofs.Solo

/-!
The transactions that crash a ledger: those that have no slot, and those that come to an operation that overcharges
or overcounts. As long as the counters have room for all operations of a transaction, none of them overcounts.
-/

namespace Randomness

/-! ## Room for counting -/

namespace Registry

/-- Requests, subscriptions and consumers can be counted `n` more times. -/
structure Spare (keys : Set Address) (n : Nat) (σ : Registry) : Prop where
  requests : ∀ g, ∀ P ∈ keys, σ.requestCount g P + n < UInt64.size
  subscriptions : ∀ P ∈ keys, σ.subscriptionCount P + n < UInt64.size
  consumers : ∀ P ∈ keys, ∀ id, σ.consumerCount P id + n < UInt32.size

/-- It only looks at configurations and subscriptions. -/
theorem Spare.congr {keys : Set Address} {n : Nat} {σ τ : Registry} (h : σ.Spare keys n)
    (same : ∀ t : Site, t.Over keys → τ t = σ t) : τ.Spare keys n where
  requests g P hP := by
    rw [requestCount_congr (same ⟨P, .config g⟩ (Site.over_config.2 hP))]
    exact h.requests g P hP
  subscriptions P hP := by
    rw [subscriptionCount_congr (same (.coordinatorConfig P) (Site.over_config.2 hP))]
    exact h.subscriptions P hP
  consumers P hP id := by
    rw [consumerCount, same (.subscription P id) (Site.over_subscription.2 hP)]
    exact h.consumers P hP id

/-- A subscription has no more requests than its coordinator. -/
def Tallied (σ : Registry) : Prop :=
  ∀ P id sub, σ (.subscription P id) = some sub → sub.reqCount.toNat ≤ σ.requestCount .subscription P

theorem Tallied.empty : empty.Tallied := by
  intro P id sub found
  cases found

end Registry

/-- What can still count once more does not overcount. -/
theorem Operation.not_overcounts_of_spare {keys : Set Address} {n : Nat} {σ : Registry} {o : Operation}
    (spare : σ.Spare keys (n + 1)) (tallied : σ.Tallied) (inside : o.Over keys) {signers : List Address} :
    ¬ o.Overcounts signers σ := by
  cases o with
  | signature secret message => exact id
  | command P c =>
    rintro ⟨_, exceeds⟩
    cases exceeds with
    | requestRandomness stored next vacant last =>
      have room := spare.requests .legacy P inside.1
      rw [Registry.requestCount_of_legacyConfig stored] at room
      omega
    | createSubscription stored next vacant last =>
      have room := spare.subscriptions P inside.1
      rw [Registry.subscriptionCount_of_config stored] at room
      omega
    | @addConsumer owner consumer id sub found own vacant last =>
      have room := spare.consumers P inside.1 id
      rw [Registry.consumerCount_of_subscription found] at room
      omega
    | requestRandomWords stored found registered allowed paid next vacant last =>
      have room := spare.requests .subscription P inside.1
      have used := tallied P _ _ found
      rw [Registry.requestCount_of_coordinatorConfig stored] at room used
      omega

theorem Command.requested?_of_order {c : Command} {id : UInt64} (orders : (c.booking? id).any Booking.isOrder) :
    (c.requested? .subscription).isSome := by
  cases c with
  | requestRandomWords requester order => rfl
  | createSubscription | fundSubscription | cancelSubscription =>
    simp only [booking?] at orders
    split at orders <;> cases orders
  | _ => cases orders

/-- What is ordered from a subscription is a request. -/
theorem Operation.requested?_of_order {o : Operation} {P : Address} {id : UInt64}
    (orders : (o.booking? P id).any Booking.isOrder) : (o.requested? .subscription P).isSome := by
  cases o with
  | signature secret message => cases orders
  | command Q c =>
    by_cases tells : P = Q ∧ Q ≠ Instruction.signatureProgram
    · simp only [booking?, told?, if_pos tells, Option.bind_some] at orders
      simpa only [requested?, if_pos tells] using Command.requested?_of_order orders
    · simp only [booking?, told?, if_neg tells, Option.bind_none] at orders
      cases orders

section

variable [Crypto] {x : Scene} {σ : Registry} {r : Registry.Result}

theorem Operation.tallied {o : Operation} (h : o.step x σ = some r) (start : σ.Tallied) : r.1.Tallied := by
  intro P id sub found
  have turn := Operation.subscription_turn h P id
  have counts := Operation.counts h .subscription P
  rw [found] at turn
  cases before : σ (.subscription P id) with
  | none =>
    rw [before] at turn
    rw [turn.appeared.2.2]
    exact Nat.zero_le _
  | some old =>
    rw [before] at turn
    have used := turn.reqCount
    have within := start P id old before
    split at used
    · next orders =>
      rw [if_pos (Operation.requested?_of_order orders)] at counts
      omega
    · omega

/-- One command adds at most one consumer to a subscription. -/
theorem Command.Does.consumerCount_le {P : Address} {c : Command} (h : c.Does x σ P r) (Q : Address) (id : UInt64) :
    r.1.consumerCount Q id ≤ σ.consumerCount Q id + 1 := by
  by_cases written : Site.subscription Q id ∈ c.writes P
  · obtain ⟨τ, log⟩ := r
    change τ.consumerCount Q id ≤ _
    cases h with
    | createSubscription stored next vacant counted =>
      obtain ⟨rfl, rfl⟩ : Q = P ∧ id = _ := by simpa [writes] using written
      rw [Registry.consumerCount_put_of_ne _ (by simp),
        Registry.consumerCount_of_subscription (Registry.put_self ..)]
      exact Nat.zero_le _
    | fundSubscription found fits =>
      obtain ⟨rfl, rfl⟩ : Q = P ∧ id = _ := by simpa [writes] using written
      rw [Registry.consumerCount_of_subscription (Registry.put_self ..),
        Registry.consumerCount_of_subscription found]
      exact Nat.le_succ _
    | addConsumer found own vacant counted =>
      obtain ⟨rfl, rfl⟩ : Q = P ∧ id = _ := by simpa [writes] using written
      rw [Registry.consumerCount_of_subscription (Registry.put_self ..),
        Registry.consumerCount_of_subscription found]
      exact (Coordinator.next32_eq_ok counted).le
    | removeConsumer found own registered counted =>
      obtain ⟨rfl, rfl⟩ : Q = P ∧ id = _ := by simpa [writes] using written
      rw [Registry.consumerCount_of_subscription (Registry.put_self ..),
        Registry.consumerCount_of_subscription found, ← Coordinator.previous32_eq_ok counted]
      exact (Nat.le_succ _).trans (Nat.le_succ _)
    | cancelSubscription found own unused =>
      obtain ⟨rfl, rfl⟩ : Q = P ∧ id = _ := by simpa [writes] using written
      rw [Registry.consumerCount_of_vacant (Registry.drop_self ..)]
      exact Nat.zero_le _
    | requestRandomWords stored found registered allowed price paid next few vacant used counted =>
      obtain ⟨rfl, rfl⟩ : Q = P ∧ id = _ := by simpa [writes] using written
      rw [Registry.consumerCount_of_subscription (Registry.put_self ..),
        Registry.consumerCount_of_subscription found]
      exact Nat.le_succ _
    | _ => simp [writes] at written
  · simp only [Registry.consumerCount, h.frame written]
    exact Nat.le_succ _

theorem Operation.consumerCount_le {o : Operation} (h : o.step x σ = some r) (P : Address) (id : UInt64) :
    r.1.consumerCount P id ≤ σ.consumerCount P id + 1 := by
  rcases step_cases h with ⟨rfl, _⟩ | ⟨Q, c, _, _, _, does⟩
  · exact Nat.le_succ _
  · exact does.consumerCount_le P id

theorem Registry.Spare.step {keys : Set Address} {n : Nat} {o : Operation} (spare : σ.Spare keys (n + 1))
    (h : o.step x σ = some r) : r.1.Spare keys n where
  requests g P hP := by
    have before := spare.requests g P hP
    rw [Operation.counts h g P]
    split <;> omega
  subscriptions P hP := by
    have before := spare.subscriptions P hP
    rw [Operation.counts_subscriptions h P]
    split <;> omega
  consumers P hP id := by
    have before := spare.consumers P hP id
    have grows := Operation.consumerCount_le h P id
    omega

end

/-! ## Runs -/

/-- Operations are executed until one is next of which `p` holds, with the records that can be read there. -/
inductive Surroundings.Reaches [Crypto] (x : Surroundings) (p : Registry → Operation → Prop) :
    Accounts → List Operation → Prop
  | next {s : Accounts} {o : Operation} {os : List Operation} (holds : p s.records o) : Reaches x p s (o :: os)
  | later {s : Accounts} {o : Operation} {os : List Operation} {i : Instruction} {e : Effect}
      (made : o.instruction = .ok i) (executed : Coordinator.execute x i s = .ok e)
      (rest : Reaches x p e.accounts os) : Reaches x p s (o :: os)

section

variable [Crypto]

namespace Surroundings

variable {x : Surroundings} {p : Registry → Operation → Prop} {s : Accounts} {o : Operation} {os : List Operation}
  {i : Instruction}

theorem not_reaches_nil : ¬ x.Reaches p s [] := by
  intro reaches
  cases reaches

theorem reaches_cons_of_error {f : Fault} (made : o.instruction = .ok i)
    (failed : Coordinator.execute x i s = .error f) : x.Reaches p s (o :: os) ↔ p s.records o := by
  constructor
  · intro reaches
    cases reaches with
    | next holds => exact holds
    | later made' executed =>
      cases Except.ok.inj (made.symm.trans made')
      rw [failed] at executed
      cases executed
  · exact .next

theorem reaches_cons_of_ok {e : Effect} (made : o.instruction = .ok i)
    (executed : Coordinator.execute x i s = .ok e) :
    x.Reaches p s (o :: os) ↔ p s.records o ∨ x.Reaches p e.accounts os := by
  constructor
  · intro reaches
    cases reaches with
    | next holds => exact .inl holds
    | later made' executed' rest =>
      cases Except.ok.inj (made.symm.trans made')
      cases Except.ok.inj (executed.symm.trans executed')
      exact .inr rest
  · exact Or.rec .next (.later made executed)

end Surroundings

variable {keys : Set Address} {x : Surroundings} {s : Accounts} {σ : Registry} {os : List Operation}
  {is : List Instruction}

namespace Ledger

/-- Operations crash the coordinator exactly if they come to one that overcharges or overcounts. -/
theorem executeFrom_crashes_iff (h : Backed keys s σ x.slot) (inside : ∀ o ∈ os, o.Over keys)
    (made : os.mapM Operation.instruction = .ok is) {n : Nat} {f : Crash} :
    (∃ p, executeFrom x n s is = .error ⟨p, .crashed f⟩) ↔ f = .arithmetic ∧
      (x.Reaches (Operation.Overcharges x.signers) s os ∨ x.Reaches (Operation.Overcounts x.signers) s os) := by
  induction os generalizing n s σ is with
  | nil =>
    cases made
    simp [executeFrom, Surroundings.not_reaches_nil]
  | cons o os ih =>
    obtain ⟨i, is, first, others, rfl⟩ := Submission.instructions_cons_eq_ok.1 made
    have own := inside o List.mem_cons_self
    have crashes (g : Crash) : Coordinator.execute x i s = .error (.crashed g) ↔ g = .arithmetic ∧
        (o.Overcharges x.signers s.records ∨ o.Overcounts x.signers s.records) := by
      have same (t : Site) (ht : t.Over keys) : s.records t = σ t := h.records_eq ht
      rw [Operation.overcharges_congr same own, Operation.overcounts_congr same own]
      exact Operation.crashed_iff h own first x
    cases executed : Coordinator.execute x i s with
    | error fault =>
      rw [executed] at crashes
      simp only [executeFrom_cons_of_error executed, Surroundings.reaches_cons_of_error first executed, ← crashes,
        Except.error.injEq, Failure.mk.injEq, exists_and_right, exists_eq', true_and]
    | ok e =>
      -- What is executed does not crash, so it neither overcharges nor overcounts.
      have calm : ¬ (o.Overcharges x.signers s.records ∨ o.Overcounts x.signers s.records) := by
        intro exceeds
        have crash := (crashes .arithmetic).2 ⟨rfl, exceeds⟩
        rw [executed] at crash
        cases crash
      rw [not_or] at calm
      obtain ⟨τ, _, after⟩ := h.executed own first executed
      simp only [executeFrom_cons_eq_error executed, Surroundings.reaches_cons_of_ok first executed, calm.1, calm.2,
        false_or]
      exact ih after (fun o ho => inside o (List.mem_cons_of_mem _ ho)) others

/-- With room for all of them, operations do not come to one that overcounts. -/
theorem not_reaches_overcounts (h : Backed keys s σ x.slot) (tallied : σ.Tallied)
    (inside : ∀ o ∈ os, o.Over keys) (spare : σ.Spare keys os.length) {signers : List Address} :
    ¬ x.Reaches (Operation.Overcounts signers) s os := by
  induction os generalizing s σ with
  | nil => exact Surroundings.not_reaches_nil
  | cons o os ih =>
    have own := inside o List.mem_cons_self
    intro reaches
    cases reaches with
    | next exceeds =>
      rw [Operation.overcounts_congr (fun t ht => h.records_eq ht) own] at exceeds
      exact Operation.not_overcounts_of_spare spare tallied own exceeds
    | later made executed rest =>
      obtain ⟨τ, stepped, after⟩ := h.executed own made executed
      exact ih after (Operation.tallied stepped tallied) (fun o ho => inside o (List.mem_cons_of_mem _ ho))
        (spare.step stepped) rest

variable {l : Ledger}

theorem answer_eq_error {signers : List Address} {c : Crash} :
    l.answer is signers = .error c ↔ ∃ p, l.submit is signers = .error ⟨p, .crashed c⟩ := by
  rw [answer]
  split
  · next executed => simp [executed]
  · next refused => simp [refused]
  · next p f crashed => simp [crashed]

/-- As long as there are slots and numbers, a transaction fails like its instructions. -/
theorem submit_eq_error (slot : l.slot.toNat + 1 < UInt64.size) (transactions : l.transactions.toNat + 1 < UInt64.size)
    {signers : List Address} {g : Failure} : l.submit is signers = .error g ↔
      executeFrom ⟨l.slot + 1, is, signers⟩ 0 l.accounts is = .error g := by
  have clock : Coordinator.next64 l.slot = .ok (l.slot + 1) := if_pos slot
  have counted : Coordinator.next64 l.transactions = .ok (l.transactions + 1) := if_pos transactions
  rw [submit, clock, counted]
  exact bind_eq_error_of_total fun effect => ⟨_, rfl⟩

/-- The records behind a ledger's history, in which no subscription has more requests than its coordinator. -/
theorem backed_tallied (distinct : DistinctAddresses keys) (ts : List Submission) (past : ∀ t ∈ ts, t.Over keys) :
    ∃ σ, Backed keys (history ts).1.accounts σ (history ts).1.slot ∧ σ.Tallied := by
  obtain ⟨σ, _, h⟩ := history_induction (C := fun s σ slot _ => Backed keys s σ slot ∧ σ.Tallied)
    (fun x s σ H o τ log s' h _ fits _ stepped => ⟨h.1.step fits stepped, Operation.tallied stepped h.2⟩)
    (fun s σ slot slot' H le h => ⟨h.1.later le, h.2⟩) distinct ⟨.empty distinct, .empty⟩ ts past
  exact ⟨σ, h⟩

/-- Nothing crashes a ledger but a slot, a fee or a counter that overruns its type. A transaction crashes exactly if
it has no slot, or comes to an operation that overcharges or overcounts; and it comes to none that overcounts while
there is room to count each of its operations. -/
theorem only_overruns_crash (distinct : DistinctAddresses keys) (ts : List Submission)
    (past : ∀ t ∈ ts, t.Over keys) (t : Submission) (within : t.Over keys) (made : t.instructions = .ok is) :
    let l := (history ts).1
    let x : Surroundings := ⟨l.slot + 1, is, t.signers⟩
    let full := l.slot.toNat + 1 = UInt64.size
    let overcharges := x.Reaches (Operation.Overcharges t.signers) l.accounts t.operations
    let overcounts := x.Reaches (Operation.Overcounts t.signers) l.accounts t.operations
    (∀ c, l.answer is t.signers = .error c ↔ c = .arithmetic ∧ (full ∨ overcharges ∨ overcounts)) ∧
    (l.accounts.records.Spare keys t.operations.length →
      ∀ c, l.answer is t.signers = .error c ↔ c = .arithmetic ∧ (full ∨ overcharges)) := by
  intro l x full overcharges overcounts
  obtain ⟨σ, backed, tallied⟩ := backed_tallied distinct ts past
  by_cases slot : l.slot.toNat + 1 < UInt64.size
  · have next : x.slot.toNat = l.slot.toNat + 1 :=
      Coordinator.next64_eq_ok (if_pos slot : Coordinator.next64 l.slot = .ok x.slot)
    have backed : Backed keys l.accounts σ x.slot := backed.later ((Nat.le_succ _).trans next.ge)
    have paced : l.Paced := .history ts
    have crashes (c : Crash) : l.answer is t.signers = .error c ↔ c = .arithmetic ∧ (overcharges ∨ overcounts) := by
      simp only [answer_eq_error, submit_eq_error slot (paced.room slot)]
      exact executeFrom_crashes_iff backed within made
    have more : ¬ full := slot.ne
    simp only [crashes, more, false_or, implies_true, true_and]
    intro spare c
    have none : ¬ overcounts := not_reaches_overcounts backed tallied within
      (spare.congr fun t ht => (backed.records_eq ht).symm)
    rw [or_iff_left none]
  · have last : full := not_not.1 fun h => slot (Coordinator.succ_lt_size_iff.2 h)
    simp only [answer_without_slot slot, Except.error.injEq, last, true_or, and_true, eq_comm, implies_true]

end Ledger

end

namespace Recorded

theorem records_elsewhere (s : Accounts) {t : Site} (other : ∀ e ∈ addresses, t ≠ ⟨program, e.1⟩) :
    @Accounts.records crypto s t = none := by
  cases ha : @Site.address crypto t with
  | error e => simp only [Accounts.records, ha]
  | ok found =>
    obtain ⟨e, he, same, _⟩ := of_address ha
    exact absurd same (other e he)

/-- Only one program can count, and only the consumers of its first subscription. -/
theorem spare_of_counts (s : Accounts) {n : Nat} :
    let _ := crypto
    (∀ g, s.records.requestCount g program + n < UInt64.size) →
      s.records.subscriptionCount program + n < UInt64.size →
      s.records.consumerCount program 0 + n < UInt32.size → s.records.Spare Set.univ n := by
  intro _ requests subscriptions consumers
  have vacant {P : Address} (p : Place) (other : P ≠ program) : s.records ⟨P, p⟩ = none :=
    records_elsewhere s fun e _ same => other (congrArg Site.program same)
  constructor
  · intro g P _
    by_cases own : P = program
    · rw [own]
      exact requests g
    · rw [Registry.requestCount_of_vacant (vacant _ own)]
      exact (Nat.add_le_add_right (Nat.zero_le _) n).trans_lt (requests g)
  · intro P _
    by_cases own : P = program
    · rw [own]
      exact subscriptions
    · rw [Registry.subscriptionCount_of_vacant (vacant _ own)]
      exact (Nat.add_le_add_right (Nat.zero_le _) n).trans_lt subscriptions
  · intro P _ id
    by_cases own : P = program ∧ id = 0
    · rw [own.1, own.2]
      exact consumers
    · have none : s.records (.subscription P id) = none := by
        refine records_elsewhere s fun e he same => own ?_
        obtain ⟨rfl, there⟩ := Site.mk.inj same
        have listed : Place.subscription id ∈ addresses.map Prod.fst := by
          rw [there]
          exact List.mem_map_of_mem he
        exact ⟨rfl, by simpa [addresses] using listed⟩
      rw [Registry.consumerCount_of_vacant none]
      exact (Nat.add_le_add_right (Nat.zero_le _) n).trans_lt consumers

/-- Two words cost 2 ^ 64. The request for them crashes the ledger, for all that the balance is 10 and no counter is
anywhere near its end. -/
theorem overcharged_crashes :
    let _ := crypto
    let l := offered 0x8000000000000000 10
    l.accounts.records.Spare Set.univ 1 ∧
      ∃ is, (ordering 0 2).instructions = .ok is ∧ l.answer is (ordering 0 2).signers = .error .arithmetic := by
  intro _ l
  have crash : ((ordering 0 2).instructions.toOption.map fun is =>
      (l.answer is (ordering 0 2).signers).map fun _ => ()) = some (.error .arithmetic) := by decide +kernel
  obtain ⟨is, made, crashed⟩ := Option.map_eq_some_iff.1 crash
  refine ⟨?_, is, toOption_eq_some.1 made, Kind.map_eq_error.1 crashed⟩
  refine spare_of_counts _ (fun g => ?_) (by decide +kernel) (by decide +kernel)
  cases g <;> decide +kernel

/-- At 3 each the two words are paid for. -/
theorem ordered_without_crash :
    let _ := crypto
    ∃ is, (ordering 0 2).instructions = .ok is ∧
      ∀ c, (offered 3 10).answer is (ordering 0 2).signers ≠ .error c := by
  intro _
  have past : ∀ t ∈ [offering 3 10], t.Over Set.univ := by
    simp [Submission.Over, offering, Operation.Over]
  have within : (ordering 0 2).Over Set.univ := by
    simp [Submission.Over, ordering, Operation.Over]
  have builds : (ordering 0 2).instructions.toOption.isSome = true := by decide +kernel
  obtain ⟨is, some⟩ := Option.isSome_iff_exists.1 builds
  have made := toOption_eq_some.1 some
  have spare : (offered 3 10).accounts.records.Spare Set.univ 1 := by
    refine spare_of_counts _ (fun g => ?_) (by decide +kernel) (by decide +kernel)
    cases g <;> decide +kernel
  have price : ((offered 3 10).accounts.records (.coordinatorConfig program)).map CoordinatorConfig.feePerWord =
      Option.some 3 := by decide +kernel
  refine ⟨is, made, fun c crashed => ?_⟩
  have crashes := (Ledger.only_overruns_crash distinct [offering 3 10] past (ordering 0 2) within made).2 spare c
  obtain ⟨_, last | charges⟩ := crashes.1 crashed
  · exact absurd last (by decide +kernel)
  · cases charges with
    | later _ _ rest => exact Surroundings.not_reaches_nil rest
    | next exceeds =>
      obtain ⟨_, exceeds⟩ := exceeds
      cases exceeds with
      | requestRandomWords stored registered allowed large =>
        rw [show (offered 3 10).accounts.records (.coordinatorConfig program) = _ from stored] at price
        rw [Option.some.inj price] at large
        exact absurd large (by decide)

end Recorded

end Randomness
