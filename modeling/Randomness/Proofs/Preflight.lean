import Randomness.Proofs.Sending
import Randomness.Proofs.Solo

/-!
Which requests of a subscription are sent. What is checked beforehand lets through what the coordinator
accepts, and one case more: a full balance, and a fee that is no 64-bit number.
-/

namespace Randomness

/-- What a subscription has left; zero if there is none. -/
def Registry.balance (σ : Registry) (P : Address) (id : UInt64) : Nat :=
  (σ (.subscription P id)).elim 0 fun sub => sub.balance.toNat

theorem Registry.balance_of_subscription {σ : Registry} {P : Address} {id : UInt64} {sub : Subscription}
    (h : σ (.subscription P id) = some sub) : σ.balance P id = sub.balance.toNat := by
  rw [balance, h]
  rfl

/-- The balance is as large as what is taken for the fee. -/
theorem CoordinatorConfig.required_le_iff (config : CoordinatorConfig) (words : UInt32) (balance : UInt64) :
    (config.feeFor? words).getD (-1) ≤ balance ↔ config.feePerWord.toNat * words.toNat ≤ balance.toNat ∨
      UInt64.size ≤ config.feePerWord.toNat * words.toNat ∧ balance.toNat + 1 = UInt64.size := by
  have bound := balance.toNat_lt_size
  unfold feeFor?
  by_cases fits : config.feePerWord.toNat * words.toNat < UInt64.size
  · simp only [fits, if_true, Option.getD_some, UInt64.le_iff_toNat_le, UInt64.toNat_ofNat_of_lt' fits]
    omega
  · have last : (-1 : UInt64).toNat + 1 = UInt64.size := rfl
    simp only [fits, if_false, Option.getD_none, UInt64.le_iff_toNat_le]
    omega

section

variable [Crypto] {keys : Set Address} {l : Ledger} {σ : Registry}

namespace Backed

variable (h : Backed keys l.accounts σ l.slot) {d : Client}

include h

/-- A client goes on with a record that there is, and fails without one. -/
theorem perform_fetch {p : Place} (inside : Site.Over keys ⟨d.program, p⟩) {what : String}
    {f : p.kind.Record → ClientM α} :
    let s := l.perform (d.addressOf p >>= fun a => Client.fetch p.kind what a >>= f)
    (∃ r, σ ⟨d.program, p⟩ = some r ∧ s = l.perform (f r)) ∨ σ ⟨d.program, p⟩ = none ∧ s.Fails l := by
  intro s
  simp only [s, Ledger.perform_addressOf]
  cases ha : p.address d.program with
  | error e => exact .inr ⟨h.fits.vacant (t := ⟨d.program, p⟩) ha, _, rfl⟩
  | ok found =>
    simp only [Client.fetch, bind_assoc, Ledger.perform_account, Ledger.get?, h.fits.get?_eq inside ha]
    cases stored : σ ⟨d.program, p⟩ with
    | none => exact .inr ⟨rfl, _, Ledger.perform_throw⟩
    | some r =>
      have read := Kind.decode_encode p.kind r (h.legible ⟨d.program, p⟩ r stored)
      refine .inl ⟨r, rfl, ?_⟩
      simp only [Option.map_some, Ledger.perform_decoded, read]

/-- A client that asks for a registration goes on with it, or without one. -/
theorem perform_fetchRegistration {id : UInt64} {consumer : Address}
    (inside : Site.Over keys (.registration d.program id consumer)) {f : Option ConsumerRegistration → ClientM α} :
    let s := l.perform (d.fetchRegistration id consumer >>= f)
    (∃ r, σ (.registration d.program id consumer) = some r ∧ s = l.perform (f (some r))) ∨
      σ (.registration d.program id consumer) = none ∧ (s = l.perform (f none) ∨ s.Fails l) := by
  intro s
  simp only [s, Client.fetchRegistration, bind_assoc, Ledger.perform_addressOf]
  cases ha : (Place.consumer id consumer).address d.program with
  | error e => exact .inr ⟨h.fits.vacant (t := .registration d.program id consumer) ha, .inr ⟨_, rfl⟩⟩
  | ok found =>
    simp only [Ledger.perform_account, Ledger.get?, h.fits.get?_eq inside ha]
    cases stored : σ (.registration d.program id consumer) with
    | none => exact .inr ⟨rfl, .inl rfl⟩
    | some r =>
      have read := Kind.decode_encode .consumerRegistration r (h.legible (.registration ..) r stored)
      refine .inl ⟨r, rfl, ?_⟩
      simp only [Option.map_some, bind_assoc, Ledger.perform_decoded, read, pure_bind]

end Backed

end

namespace Call

/-- What a request needs, besides the fee. -/
structure Eligible (c : Call) (b : Binding) (σ : Registry) (config : CoordinatorConfig) : Prop
    extends c.Allowed b σ config where
  consumer : b.consumerProgram ≠ Address.zero
  few : b.callbackAccounts.length ≤ 4

/-- A request that passes the checks on these records. -/
structure Passes (c : Call) (b : Binding) (σ : Registry) (config : CoordinatorConfig) (sub : Subscription) : Prop
    extends c.Allowed b σ config where
  found : σ (.subscription c.program b.subscriptionId) = some sub
  paid : (config.feeFor? c.words).getD (-1) ≤ sub.balance

/-- A request that the subscription can pay for. -/
def Acceptable (c : Call) (b : Binding) (σ : Registry) : Prop :=
  ∃ config, c.Eligible b σ config ∧
    config.feePerWord.toNat * c.words.toNat ≤ σ.balance c.program b.subscriptionId

/-- A request whose fee has more than 64 bits, for a balance of all of them. -/
def Slips (c : Call) (b : Binding) (σ : Registry) : Prop :=
  ∃ config, c.Eligible b σ config ∧ UInt64.size ≤ config.feePerWord.toNat * c.words.toNat ∧
    σ.balance c.program b.subscriptionId + 1 = UInt64.size

def Derivable [Crypto] (c : Call) (p : Place) : Prop := ∃ a e, Site.address ⟨c.program, p⟩ = .ok (a, e)

/-- The numbers that a request adds one to are below their maximum, and its address can be derived. -/
structure Room [Crypto] (c : Call) (b : Binding) (l : Ledger) (σ : Registry) : Prop where
  slot : l.slot.toNat + 1 < UInt64.size
  transactions : l.transactions.toNat + 1 < UInt64.size
  requests : ∀ config, σ (.coordinatorConfig c.program) = some config →
    config.requestCounter.toNat + 1 < UInt64.size ∧ c.Derivable (.request .subscription config.requestCounter)
  used : ∀ sub, σ (.subscription c.program b.subscriptionId) = some sub → sub.reqCount.toNat + 1 < UInt64.size

section

variable {keys : Set Address} {c : Call} {b : Binding} {σ τ : Registry}
  (same : ∀ t : Site, t.Over keys → τ t = σ t) (inside : c.Over keys)

include same inside

theorem balance_congr : τ.balance c.program b.subscriptionId = σ.balance c.program b.subscriptionId := by
  rw [Registry.balance, same _ (Site.over_subscription.2 inside.1)]
  rfl

theorem eligible_congr (mode : c.client.mode = .subscription b) {config : CoordinatorConfig} :
    c.Eligible b τ config ↔ c.Eligible b σ config := by
  constructor
  · exact fun h => { h with toAllowed := h.toAllowed.congr (fun t ht => (same t ht).symm) inside mode }
  · exact fun h => { h with toAllowed := h.toAllowed.congr same inside mode }

theorem acceptable_congr (mode : c.client.mode = .subscription b) : c.Acceptable b τ ↔ c.Acceptable b σ := by
  simp only [Acceptable, eligible_congr same inside mode, balance_congr same inside]

theorem slips_congr (mode : c.client.mode = .subscription b) : c.Slips b τ ↔ c.Slips b σ := by
  simp only [Slips, eligible_congr same inside mode, balance_congr same inside]

theorem Room.congr [Crypto] {l : Ledger} (h : c.Room b l τ) : c.Room b l σ where
  slot := h.slot
  transactions := h.transactions
  requests := by
    intro config stored
    rw [← same _ (Site.over_config.2 inside.1)] at stored
    exact h.requests config stored
  used := by
    intro sub found
    rw [← same _ (Site.over_subscription.2 inside.1)] at found
    exact h.used sub found

end

section

variable [Crypto] {keys : Set Address} {c : Call} {b : Binding} {l : Ledger} {σ : Registry}
  {config : CoordinatorConfig} {sub : Subscription}

/-- A call goes on behind the checks if it passes them, and fails if it does not. -/
theorem perform_preflight (backed : Backed keys l.accounts σ l.slot) (inside : c.Over keys)
    (mode : c.client.mode = .subscription b) {f : CoordinatorConfig → ClientM α} :
    let s := l.perform (c.client.preflight b c.words >>= f)
    (∃ config sub, c.Passes b σ config sub ∧ s = l.perform (f config)) ∨
      (∀ config sub, ¬ c.Passes b σ config sub) ∧ s.Fails l := by
  intro s
  simp only [s, Client.preflight, Client.fetchCoordinatorConfig, Client.fetchSubscription, bind_assoc]
  rcases backed.perform_fetch (p := .config .subscription) (Site.over_config.2 inside.1) with
    ⟨config, stored, goes⟩ | ⟨vacant, fails⟩
  swap
  · exact .inr ⟨fun _ _ passes => Option.some_ne_none _ (passes.stored.symm.trans vacant), fails⟩
  rw [goes]
  have only {config' sub} (passes : c.Passes b σ config' sub) : config' = config :=
    Option.some.inj (passes.stored.symm.trans stored)
  by_cases words : c.words = 0 ∨ config.maxNumWords < c.words
  · simp only [if_pos words]
    refine .inr ⟨fun _ _ passes => ?_, _, Ledger.perform_throw⟩
    have most := passes.most
    rw [only passes] at most
    exact words.elim passes.positive (UInt32.not_lt.2 most)
  simp only [if_neg words, bind_assoc]
  rcases backed.perform_fetchRegistration (Site.over_consumer.2 ⟨inside.1, inside.2 b mode⟩) with
    ⟨registration, registered, goes⟩ | ⟨vacant, ends⟩
  swap
  · refine .inr ⟨fun _ _ passes => passes.registered vacant, ?_⟩
    rcases ends with goes | fails
    · rw [goes]
      exact ⟨_, Ledger.perform_throw⟩
    · exact fails
  rw [goes]
  simp only [Option.isNone_some, Bool.false_eq_true, if_false, bind_assoc]
  rcases backed.perform_fetch (p := .subscription b.subscriptionId) (Site.over_subscription.2 inside.1) with
    ⟨sub, found, goes⟩ | ⟨vacant, fails⟩
  swap
  · exact .inr ⟨fun _ _ passes => Option.some_ne_none _ (passes.found.symm.trans vacant), fails⟩
  rw [goes]
  by_cases poor : sub.balance < (CoordinatorConfig.feeFor? config c.words).getD (-1)
  · simp only [if_pos poor]
    refine .inr ⟨fun _ _ passes => ?_, _, Ledger.perform_throw⟩
    have paid := passes.paid
    rw [only passes, Option.some.inj (passes.found.symm.trans found)] at paid
    exact UInt64.not_lt.2 paid poor
  · rw [not_or, UInt32.not_lt] at words
    simp only [if_neg poor, pure_bind]
    exact .inl ⟨config, sub, { stored, found, least := Coordinator.one_le_iff.2 words.1, most := words.2
                               registered := by simp [registered], paid := UInt64.not_lt.1 poor }, rfl⟩

/-- What a call comes to that sends this transaction, for the id that it has read. -/
def transacting (c : Call) (l : Ledger) (n : UInt64) (i : Instruction) : Solo (Except ClientError RequestHandle) :=
  let r := l.told (.submit [i] [c.requester])
  ⟨r.1, [⟨(), l, r.1, .submit [i] [c.requester], r.2⟩], r.2.map (c.ending n)⟩

theorem perform_sending {n : UInt64} {i : Instruction} : l.perform (c.sending n (.ok i)) = c.transacting l n i := by
  rw [sending, Ledger.perform_built, transacting]
  simp only [Ledger.perform_submitAll, Ledger.perform_addressOf]
  generalize l.told (.submit [i] [c.requester]) = r
  obtain ⟨l', f | e | x⟩ := r
  · rfl
  · rfl
  · simp only [Except.map, ending, program, generation]
    cases (Place.request c.client.generation ((c.client.confirmedId? c.requester x).getD n)).address
      c.client.program <;> rfl

theorem perform_sending_error {n : UInt64} {e : BuildError} : (l.perform (c.sending n (.error e))).Fails l :=
  ⟨.ofBuild e, rfl⟩

/-- The call without what it reads. -/
def perform (c : Call) (l : Ledger) : Solo (Except ClientError RequestHandle) :=
  l.perform (c.client.submit c.requester c.seed c.numWords)

/-- The instruction is not made for the zero consumer or for too many accounts. -/
theorem named_of_made (mode : c.client.mode = .subscription b) {treasury : Address} {seed : Block 32} {n : UInt64}
    {i : Instruction} (made : (c.command treasury seed n).instruction c.program = .ok i) :
    b.consumerProgram ≠ Address.zero ∧ b.callbackAccounts.length ≤ 4 := by
  rw [command, mode] at made
  simp only [Command.instruction, Subscriptions.requestRandomWords, bind_eq_ok, Instruction.outOfRange_eq_ok,
    Instruction.requireNonZero] at made
  obtain ⟨_, nonzero, _, few, _⟩ := made
  refine ⟨fun zero => ?_, Nat.not_lt.1 few⟩
  rw [if_pos zero] at nonzero
  cases nonzero

/-- For everything else that passes the checks, it is. -/
theorem exists_made (mode : c.client.mode = .subscription b) (positive : c.words ≠ 0)
    (consumer : b.consumerProgram ≠ Address.zero) (few : b.callbackAccounts.length ≤ 4) {treasury : Address}
    {seed : Block 32} {n : UInt64} (config : c.Derivable (.config .subscription))
    (subscription : c.Derivable (.subscription b.subscriptionId))
    (registration : c.Derivable (.consumer b.subscriptionId b.consumerProgram))
    (request : c.Derivable (.request .subscription n)) :
    ∃ i, (c.command treasury seed n).instruction c.program = .ok i := by
  obtain ⟨_, _, config⟩ := config
  obtain ⟨_, _, subscription⟩ := subscription
  obtain ⟨_, _, registration⟩ := registration
  obtain ⟨_, _, request⟩ := request
  rw [command, mode]
  simp only [Command.instruction, Subscriptions.requestRandomWords, Subscriptions.config,
    Subscriptions.subscription, Subscriptions.registration, Subscriptions.request, bind_eq_ok,
    Instruction.outOfRange_eq_ok, Instruction.addressOf_eq_ok, pure_eq_ok, Instruction.requireNonZero]
  exact ⟨_, (), if_neg consumer, positive, Nat.not_lt.2 few, _, ⟨_, config⟩, _, ⟨_, subscription⟩, _,
    ⟨_, registration⟩, _, ⟨_, request⟩, rfl⟩

variable {seed : Block 32}

/-- What passes the checks has its sites' addresses. -/
theorem Passes.derivable (passes : c.Passes b σ config sub) (backed : Backed keys l.accounts σ l.slot) :
    c.Derivable (.config .subscription) ∧ c.Derivable (.subscription b.subscriptionId) ∧
      c.Derivable (.consumer b.subscriptionId b.consumerProgram) := by
  obtain ⟨registration, registered⟩ := Option.ne_none_iff_exists'.1 passes.registered
  obtain ⟨_, _, ha, _⟩ := backed.fits.stored _ _ passes.stored
  obtain ⟨_, _, hb, _⟩ := backed.fits.stored _ _ passes.found
  obtain ⟨_, _, hc, _⟩ := backed.fits.stored _ _ registered
  exact ⟨⟨_, _, ha⟩, ⟨_, _, hb⟩, _, _, hc⟩

section

variable (backed : Backed keys l.accounts σ l.slot) (inside : c.Over keys) (mode : c.client.mode = .subscription b)
  (given : c.seed = seed.bytes)

include backed inside mode given

theorem perform_subscription :
    (∃ config sub, c.Passes b σ config sub ∧ c.perform l = l.perform (c.sending config.requestCounter
      ((c.command Address.zero seed config.requestCounter).instruction c.program))) ∨
    (∀ config sub, ¬ c.Passes b σ config sub) ∧ (c.perform l).Fails l := by
  have start : c.client.submit c.requester c.seed c.numWords = _ := start_subscription mode given
  rw [perform, start]
  exact perform_preflight backed inside mode

/-- An eligible request that passes the checks is one transaction. -/
theorem Passes.perform (passes : c.Passes b σ config sub) (consumer : b.consumerProgram ≠ Address.zero)
    (few : b.callbackAccounts.length ≤ 4) (request : c.Derivable (.request .subscription config.requestCounter)) :
    ∃ i, (c.command Address.zero seed config.requestCounter).instruction c.program = .ok i ∧
      c.perform l = c.transacting l config.requestCounter i := by
  obtain ⟨configured, subscribed, registered⟩ := passes.derivable backed
  obtain ⟨i, made⟩ : ∃ i, (c.command Address.zero seed config.requestCounter).instruction c.program = .ok i :=
    exists_made mode passes.positive consumer few configured subscribed registered request
  rcases perform_subscription backed inside mode given with ⟨config', sub', passes', goes⟩ | ⟨none, _⟩
  · obtain rfl : config' = config := Option.some.inj (passes'.stored.symm.trans passes.stored)
    exact ⟨i, made, by rw [goes, made, perform_sending]⟩
  · exact absurd passes (none config sub)

/-- A call sends an eligible request that passes the checks, or fails before. -/
theorem perform_subscription_cases : (c.perform l).Fails l ∨ ∃ config sub i, c.Eligible b σ config ∧
    c.Passes b σ config sub ∧ (c.command Address.zero seed config.requestCounter).instruction c.program = .ok i ∧
      c.perform l = c.transacting l config.requestCounter i := by
  rcases perform_subscription backed inside mode given with ⟨config, sub, passes, goes⟩ | ⟨_, fails⟩
  · cases made : (c.command Address.zero seed config.requestCounter).instruction c.program with
    | error e =>
      rw [goes, made]
      exact .inl perform_sending_error
    | ok i =>
      obtain ⟨consumer, few⟩ := named_of_made mode made
      exact .inr ⟨config, sub, i, ⟨passes.toAllowed, consumer, few⟩, passes, made, by rw [goes, made, perform_sending]⟩
  · exact .inl fails

end

/-- The coordinator accepts an eligible request that is paid for. -/
theorem Eligible.does (eligible : c.Eligible b σ config) (backed : Backed keys l.accounts σ l.slot)
    (mode : c.client.mode = .subscription b) (found : σ (.subscription c.program b.subscriptionId) = some sub)
    (affordable : config.feePerWord.toNat * c.words.toNat ≤ sub.balance.toNat)
    (requests : config.requestCounter.toNat + 1 < UInt64.size) (used : sub.reqCount.toNat + 1 < UInt64.size)
    (x : Scene) : ∃ r, (c.command Address.zero seed config.requestCounter).Does x σ c.program r := by
  obtain ⟨registration, registered⟩ := Option.ne_none_iff_exists'.1 eligible.registered
  have fits : config.feePerWord.toNat * c.words.toNat < UInt64.size :=
    affordable.trans_lt sub.balance.toNat_lt_size
  have price : config.feeFor? c.words = some (UInt64.ofNat (config.feePerWord.toNat * c.words.toNat)) :=
    if_pos fits
  have paid : UInt64.ofNat (config.feePerWord.toNat * c.words.toNat) ≤ sub.balance := by
    rw [UInt64.le_iff_toNat_le, UInt64.toNat_ofNat_of_lt' fits]
    exact affordable
  have counter := Registry.requestCount_of_coordinatorConfig eligible.stored
  have vacant : σ (.wordsRequest c.program config.requestCounter) = none :=
    Option.map_eq_none_iff.1 (backed.next_vacant (g := .subscription) counter)
  rw [command, mode]
  have allowed : c.words ≠ 0 ∧ c.words ≤ config.maxNumWords := ⟨eligible.positive, eligible.most⟩
  exact ⟨_, .requestRandomWords eligible.stored found registered allowed price paid rfl eligible.few vacant
    (if_pos used) (if_pos requests)⟩

section

variable (backed : Backed keys l.accounts σ l.slot) (inside : c.Over keys) (mode : c.client.mode = .subscription b)
  (given : c.seed = seed.bytes) (room : c.Room b l σ)

include backed inside mode given room

theorem transacts_iff : (l.converse c.start).transactions ≠ [] ↔ c.Acceptable b σ ∨ c.Slips b σ := by
  change (c.perform l).exchanges ≠ [] ↔ _
  constructor
  · intro sent
    rcases perform_subscription_cases backed inside mode given with
      fails | ⟨config, sub, i, eligible, passes, made, goes⟩
    · exact absurd fails.exchanges sent
    have paid := passes.paid
    rw [CoordinatorConfig.required_le_iff, ← Registry.balance_of_subscription passes.found] at paid
    rcases paid with paid | ⟨large, full⟩
    · exact .inl ⟨config, eligible, paid⟩
    · exact .inr ⟨config, eligible, large, full⟩
  · intro either
    have paid : ∃ config, c.Eligible b σ config ∧
        (config.feePerWord.toNat * c.words.toNat ≤ σ.balance c.program b.subscriptionId ∨
          UInt64.size ≤ config.feePerWord.toNat * c.words.toNat ∧
            σ.balance c.program b.subscriptionId + 1 = UInt64.size) := by
      rcases either with ⟨config, eligible, paid⟩ | ⟨config, eligible, slip⟩
      · exact ⟨config, eligible, .inl paid⟩
      · exact ⟨config, eligible, .inr slip⟩
    obtain ⟨config, eligible, paid⟩ := paid
    obtain ⟨sub, found⟩ := backed.counted.subscribed eligible.registered
    rw [Registry.balance_of_subscription found, ← CoordinatorConfig.required_le_iff] at paid
    have passes : c.Passes b σ config sub := { eligible.toAllowed with found, paid }
    obtain ⟨i, _, goes⟩ := passes.perform backed inside mode given eligible.consumer eligible.few
      (room.requests config eligible.stored).2
    rw [goes]
    exact List.cons_ne_nil _ _

/-- Without the slip, the transaction is executed. -/
theorem executed_of_not_slips (proper : ¬ c.Slips b σ) :
    ∀ x ∈ (l.converse c.start).transactions, x.Executed := by
  change ∀ x ∈ (c.perform l).exchanges, x.Executed
  intro x hx
  rcases perform_subscription_cases backed inside mode given with
    fails | ⟨config, sub, i, eligible, passes, made, goes⟩
  · rw [fails.exchanges] at hx
    cases hx
  have affordable : config.feePerWord.toNat * c.words.toNat ≤ sub.balance.toNat := by
    rcases (config.required_le_iff c.words sub.balance).1 passes.paid with paid | ⟨large, full⟩
    · exact paid
    · rw [← Registry.balance_of_subscription passes.found] at full
      exact absurd ⟨config, eligible, large, full⟩ proper
  obtain ⟨l', e, executed⟩ := Ledger.accepts_one backed inside.command made (List.mem_singleton.2 signer_command)
    (eligible.does backed mode passes.found affordable (room.requests config eligible.stored).1
      (room.used sub passes.found)) room.slot room.transactions
  rw [goes, transacting, List.mem_singleton] at hx
  subst hx
  refine ⟨[i], [c.requester], e, rfl, ?_⟩
  rw [Ledger.told_of_submit executed]
  exact executed

end

end

/-- What the checks before a request decide. A transaction is sent exactly for an acceptable request or for
one that slips through. Sending exactly the acceptable requests, and having each of them executed, is the same
as having none slip through. -/
theorem preflight_decides [Crypto] {keys : Set Address} (distinct : DistinctAddresses keys)
    (ts : List Submission) (past : ∀ t ∈ ts, t.Over keys) (c : Call) (inside : c.Over keys) (b : Binding)
    (mode : c.client.mode = .subscription b) (given : c.seed.length = 32)
    (room : c.Room b (Ledger.history ts).1 (Ledger.history ts).1.accounts.records) :
    let l := (Ledger.history ts).1
    let sent := (l.converse c.start).transactions
    (sent ≠ [] ↔ c.Acceptable b l.accounts.records ∨ c.Slips b l.accounts.records) ∧
    (((sent ≠ [] ↔ c.Acceptable b l.accounts.records) ∧ ∀ x ∈ sent, x.Executed) ↔
      ¬ c.Slips b l.accounts.records) := by
  intro l sent
  obtain ⟨σ, backed⟩ := Ledger.backed distinct ts past
  have same (t : Site) (ht : t.Over keys) : l.accounts.records t = σ t := backed.records_eq ht
  obtain ⟨seed, seeded⟩ : ∃ seed : Block 32, c.seed = seed.bytes := ⟨⟨c.seed, given⟩, rfl⟩
  have room := Room.congr same inside room
  rw [acceptable_congr same inside mode, slips_congr same inside mode]
  have sends : sent ≠ [] ↔ c.Acceptable b σ ∨ c.Slips b σ := transacts_iff backed inside mode seeded room
  refine ⟨sends, ?_, ?_⟩
  · intro held slips
    obtain ⟨accepts, _⟩ := held
    obtain ⟨config, eligible, affordable⟩ := accepts.1 (sends.2 (.inr slips))
    obtain ⟨config', eligible', large, full⟩ := slips
    have one := Option.some.inj (eligible.stored.symm.trans eligible'.stored)
    subst one
    omega
  · intro proper
    exact ⟨sends.trans (or_iff_left proper), executed_of_not_slips backed inside mode seeded room proper⟩

end Call

namespace Recorded

/-- Two words cost 2 ^ 64. The request is sent, and the ledger crashes on it. -/
theorem oversized_sent :
    let _ := crypto
    let l := offered 0x8000000000000000 0xffffffffffffffff
    (l.converse asker.start).transactions ≠ [] ∧ ¬ asker.Acceptable binding l.accounts.records ∧
      ∃ x ∈ (l.converse asker.start).transactions, ¬ x.Executed := by
  intro _ l
  have price : (l.accounts.records (.coordinatorConfig program)).map CoordinatorConfig.feePerWord =
      some 0x8000000000000000 := by decide +kernel
  have crash : ((l.converse asker.start).transactions.any fun x => !x.accepted) = true := by decide +kernel
  obtain ⟨x, hx, crash⟩ := List.any_eq_true.1 crash
  refine ⟨List.ne_nil_of_mem hx, ?_, x, hx, ?_⟩
  · intro held
    obtain ⟨config, eligible, affordable⟩ := held
    have balance : l.accounts.records.balance asker.program binding.subscriptionId < UInt64.size := by
      decide +kernel
    rw [show l.accounts.records (.coordinatorConfig program) = some config from eligible.stored] at price
    rw [Option.some.inj price] at affordable
    have large : UInt64.size ≤ (0x8000000000000000 : UInt64).toNat * asker.words.toNat := by decide
    exact absurd affordable (Nat.not_le.2 (balance.trans_le large))
  · intro executed
    rw [executed.accepted] at crash
    cases crash

/-- For a balance of 10 the two words may cost 3 each. -/
theorem asker_served :
    let _ := crypto
    let l := offered 3 10
    (l.converse asker.start).transactions ≠ [] ∧ ∀ x ∈ (l.converse asker.start).transactions, x.Executed := by
  intro _ l
  have past : ∀ t ∈ [offering 3 10], t.Over Set.univ := by
    simp [Submission.Over, offering, Operation.Over]
  have inside : asker.Over Set.univ := ⟨Set.mem_univ _, fun _ _ => Set.mem_univ _⟩
  have counters : (l.accounts.records (.coordinatorConfig program)).map (fun config =>
      (config.feePerWord, config.requestCounter)) = some (3, 0) := by decide +kernel
  have used : (l.accounts.records (.subscription program 0)).map Subscription.reqCount = some 0 := by
    decide +kernel
  have room : asker.Room binding l l.accounts.records := by
    refine ⟨by decide +kernel, by decide +kernel, ?_, ?_⟩
    · intro config stored
      rw [show l.accounts.records (.coordinatorConfig program) = some config from stored] at counters
      obtain ⟨_, counter⟩ := Prod.mk.inj (Option.some.inj counters)
      change config.requestCounter = 0 at counter
      rw [counter]
      exact ⟨by decide, _, _, address_of addresses[6] (List.getElem_mem _)⟩
    · intro sub found
      rw [show l.accounts.records (.subscription program 0) = some sub from found] at used
      rw [Option.some.inj used]
      decide
  have decides := Call.preflight_decides distinct [offering 3 10] past asker inside binding rfl rfl room
  have proper : ¬ asker.Slips binding l.accounts.records := by
    intro held
    obtain ⟨config, eligible, large, _⟩ := held
    rw [show l.accounts.records (.coordinatorConfig program) = some config from eligible.stored] at counters
    obtain ⟨price, _⟩ := Prod.mk.inj (Option.some.inj counters)
    rw [price] at large
    exact absurd large (by decide)
  have sent : (l.converse asker.start).transactions.length = 1 := by decide +kernel
  exact ⟨List.ne_nil_of_length_pos (by rw [sent]; exact Nat.one_pos), (decides.2.2 proper).2⟩

end Recorded

end Randomness
