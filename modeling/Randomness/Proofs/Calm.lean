import Randomness.Proofs.History

/-!
Executions that do not crash: they end in a result or in a refusal. What a command counts is only counted if all
its other conditions hold, and a fee is only computed for a request that may be made.
-/

namespace Randomness

open Instruction AccountMeta

namespace Coordinator

def Calm (x : Outcome α) : Prop := ∀ f, x ≠ .error (.crashed f)

namespace Calm

@[simp] theorem ok (a : α) : Calm (.ok a) := nofun

@[simp] theorem pure (a : α) : Calm (pure a) := nofun

@[simp] theorem refused (r : Refusal) : Calm (.error (.refused r) : Outcome α) := nofun

/-- What follows a step only matters if the step has a result. -/
theorem bind {x : Outcome α} {f : α → Outcome β} (h : Calm x) (next : ∀ a, x = .ok a → Calm (f a)) :
    Calm (x >>= f) := by
  cases x with
  | ok a => exact next a rfl
  | error e =>
    intro c crashed
    cases crashed
    exact h c rfl

@[simp] theorem bind_iff {x : Outcome α} {f : α → Outcome β} :
    Calm (x >>= f) ↔ Calm x ∧ ∀ a, x = .ok a → Calm (f a) := by
  constructor
  · intro h
    constructor
    · rintro c rfl
      exact h c rfl
    · rintro a rfl
      exact h
  · rintro ⟨h, next⟩
    exact h.bind next

@[simp] theorem key (i : Instruction) (n : Nat) : Calm (key i n) := by
  unfold Coordinator.key
  split
  · exact ok _
  · exact refused _

@[simp] theorem argument (c : Codec α) (i : Instruction) (n : Nat) : Calm (argument c i n) := by
  unfold Coordinator.argument
  split
  · exact ok _
  · exact refused _

@[simp] theorem require (p : Prop) [Decidable p] (r : Refusal) : Calm (require p r) := by
  unfold Coordinator.require
  split
  · exact ok _
  · exact refused _

theorem load (k : Kind) (s : Accounts) (a : Address) : Calm (load k s a) := by
  unfold Coordinator.load
  split
  · exact refused _
  · next data _ =>
    cases k.decode data with
    | ok r => exact ok _
    | error e => exact refused _

@[simp] theorem create (k : Kind) (s : Accounts) (a : Address) (r : k.Record) : Calm (create k s a r) := by
  unfold Coordinator.create
  split
  · exact refused _
  · exact ok _

theorem next64 {n : UInt64} (room : n.toNat + 1 < UInt64.size) : Calm (next64 n) := by
  rw [Coordinator.next64, if_pos room]
  exact ok _

theorem next32 {n : UInt32} (room : n.toNat + 1 < UInt32.size) : Calm (next32 n) := by
  rw [Coordinator.next32, if_pos room]
  exact ok _

theorem minus64 {m n : UInt64} (covered : n ≤ m) : Calm (minus64 m n) := by
  rw [minus64_of_le covered]
  exact ok _

theorem behind {as : List α} {n : Nat} (long : n ≤ as.length) : Calm (behind as n) := by
  rw [behind_of_le long]
  exact ok _

theorem place {ms : List AccountMeta} (few : ms.length ≤ maxCallbackAccounts) :
    Calm (placeFrom 0 (Vector.replicate 4 Address.zero) 0 ms) := by
  rw [place_eq few]
  exact ok _

theorem previous32 {n : UInt32} (positive : n ≠ 0) : Calm (previous32 n) := by
  rw [Coordinator.previous32, if_neg positive]
  exact ok _

variable [Crypto]

@[simp] theorem expect (supplied : Address) (p : Place) (program : Address) : Calm (expect supplied p program) := by
  unfold Coordinator.expect
  cases p.address program with
  | error e => exact refused _
  | ok found => exact (require _ _).bind fun _ _ => ok _

@[simp] theorem requireProof (x : Surroundings) (authority : Address) (id : UInt64) (randomness : Block 32) :
    Calm (requireProof x authority id randomness) := by
  rw [requireProof_eq]
  exact require _ _

/-- What is told to a coordinator with one signer is as calm as the arm that is told with the signature. -/
theorem signed {x : Surroundings} {i : Instruction} {s : Accounts} {d : Discriminator} {c : Codec β} {b : β}
    {a : Address} {w : Bool} {ms : List AccountMeta} (proper : i.program ≠ signatureProgram)
    (data : i.data = d.bytes ++ c.encode b) (accounts : i.accounts = ⟨a, true, w⟩ :: ms)
    (hms : ∀ n ∈ ms, n.isSigner = false)
    (h : a ∈ x.signers → Coordinator.argument c i 8 = .ok b → Calm (dispatch d x i s)) : Calm (execute x i s) := by
  rw [execute_of_data proper data, unsigned?_cons accounts hms]
  by_cases signed : a ∈ x.signers
  · rw [if_pos signed]
    exact h signed (argument_of_data data)
  · rw [if_neg signed]
    exact refused _

end Calm

/-- With its signature, an instruction does what its arm does. -/
theorem execute_signed [Crypto] {x : Surroundings} {i : Instruction} {s : Accounts} {d : Discriminator}
    {c : Codec β} {b : β} {a : Address} {w : Bool} {ms : List AccountMeta} {y : Outcome Effect}
    (proper : i.program ≠ signatureProgram) (data : i.data = d.bytes ++ c.encode b)
    (accounts : i.accounts = ⟨a, true, w⟩ :: ms) (hms : ∀ n ∈ ms, n.isSigner = false) (signed : a ∈ x.signers)
    (h : Coordinator.argument c i 8 = .ok b → dispatch d x i s = y) : execute x i s = y := by
  rw [execute_of_data proper data, unsigned?_cons accounts hms, if_pos signed]
  exact h (argument_of_data data)

theorem require_eq_ok {p : Prop} [Decidable p] {r : Refusal} {u : Unit} : require p r = .ok u ↔ p := by
  unfold require
  by_cases h : p <;> simp [h, refuse]

variable [Crypto] {keys : Set Address} {s : Accounts} {σ : Registry} {i : Instruction} {P : Address}
  {b c : UInt8}

/-- An address that was derived for one site is not taken for another one. -/
theorem expect_ne_ok (distinct : DistinctAddresses keys) {t u : Site} (ht : t.Over keys) (hu : u.Over keys)
    {a : Address} (ha : u.address = .ok (a, b)) (other : t ≠ u) (found : Address × UInt8) :
    Coordinator.expect a t.place t.program ≠ .ok found := by
  intro same
  have agrees := distinct.expect hu ht ha (p := t = u) Iff.rfl
  rw [same] at agrees
  have shut : (guard (t = u) : Option Unit) = none := if_neg other
  rw [shut] at agrees
  cases agrees

/-- A record is only created at a vacant site, and at the address that was derived for it. -/
theorem vacant_of_create (hf : Fits keys s σ) {t u : Site} (ht : t.Over keys) (hu : u.Over keys) {a : Address}
    (hu' : u.address = .ok (a, b)) {found : Address × UInt8}
    (expected : Coordinator.expect a t.place t.program = .ok found) {r : t.kind.Record} {s' : Accounts}
    (created : Coordinator.create t.kind s found.1 r = .ok s') : t = u ∧ σ t = none := by
  have same : t = u := by
    by_contra other
    exact expect_ne_ok hf.distinct ht hu hu' other found expected
  subst same
  rw [expect_self hu'] at expected
  cases expected
  have agrees := hf.create ht hu' r
  rw [created] at agrees
  cases vacant : σ t with
  | none => exact ⟨rfl, rfl⟩
  | some q =>
    rw [vacant] at agrees
    cases agrees

/-- A record that is loaded is the one at its site. -/
theorem load_eq_ok (hf : Fits keys s σ) {t : Site} (ht : t.Over keys) {a : Address}
    (ha : t.address = .ok (a, b)) {r : t.kind.Record} (loaded : load t.kind s a = .ok r) : σ t = some r := by
  have agrees := hf.load ht ha
  rw [loaded] at agrees
  cases read : σ.find t with
  | none =>
    rw [read] at agrees
    cases agrees
  | some q =>
    rw [read] at agrees
    obtain ⟨rfl, stored, _⟩ := agrees.related
    exact stored

theorem load_of_stored (hf : Fits keys s σ) (legible : σ.Legible) {t : Site} (ht : t.Over keys) {a : Address}
    (ha : t.address = .ok (a, b)) {r : t.kind.Record} (stored : σ t = some r) : load t.kind s a = .ok r := by
  simp only [load, hf.get?_eq ht ha, stored, Option.map_some, Kind.decode_encode _ r (legible t r stored)]
  rfl

theorem requestRandomness_calm (hf : Fits keys s σ) (hi : i.program = P) (hP : P ∈ keys) (x : Surroundings)
    {callback : Bool} {config request : Address} {id : UInt64}
    (hconfig : (Site.legacyConfig P).address = .ok (config, b))
    (hrequest : (Site.legacyRequest P id).address = .ok (request, c)) (k1 : key i 1 = .ok config)
    (k2 : key i 2 = .ok request)
    (room : ∀ old, σ (.legacyConfig P) = some old → old.requestCounter = id → σ (.legacyRequest P id) = none →
      old.requestCounter.toNat + 1 < UInt64.size) : Calm (Coordinator.requestRandomness callback x i s) := by
  subst hi
  have overConfig : (Site.legacyConfig i.program).Over keys := by simpa using hP
  have overRequest (n : UInt64) : (Site.legacyRequest i.program n).Over keys := by simpa using hP
  simp only [Coordinator.requestRandomness, k1, k2, ok_bind]
  refine (Calm.key _ _).bind fun requester _ => ?_
  refine (Calm.load _ _ _).bind fun old loaded => ?_
  have stored := load_eq_ok hf overConfig hconfig loaded
  refine (Calm.expect _ _ _).bind fun found expected => ?_
  -- Whatever is requested, it is only created at its own vacant site.
  have rest (request : LegacyRequest) (result : Accounts → UInt64 → Effect) :
      Calm (do
        let s ← create .legacyRequest s found.1 request
        let requestCounter ← next64 old.requestCounter
        return result s requestCounter) := by
    refine (Calm.create _ _ _ _).bind fun _ created => ?_
    obtain ⟨same, vacant⟩ := vacant_of_create (t := .legacyRequest i.program old.requestCounter) hf
      (overRequest _) (overRequest id) hrequest expected created
    have counter : old.requestCounter = id := by simpa using same
    rw [counter] at vacant
    exact (Calm.next64 (room old stored counter vacant)).bind fun _ _ => .ok _
  cases callback with
  | false => exact (Calm.argument _ _ _).bind fun seed _ => rest _ _
  | true => exact (Calm.key _ _).bind fun program _ => (Calm.argument _ _ _).bind fun seed _ => rest _ _

/-- The last request that the counter can count is made, and then the counter runs over. -/
theorem requestRandomness_crashes (hf : Fits keys s σ) (legible : σ.Legible) (hi : i.program = P) (hP : P ∈ keys)
    (x : Surroundings) {callback : Option Address} {requester config request : Address} {seed : Block 32}
    {old : LegacyConfig} (hconfig : (Site.legacyConfig P).address = .ok (config, b))
    (hrequest : (Site.legacyRequest P old.requestCounter).address = .ok (request, c))
    (k0 : key i 0 = .ok requester) (k1 : key i 1 = .ok config) (k2 : key i 2 = .ok request)
    (k4 : ∀ program ∈ callback, key i 4 = .ok program) (a8 : argument (Codec.block 32) i 8 = .ok seed)
    (stored : σ (.legacyConfig P) = some old) (vacant : σ (.legacyRequest P old.requestCounter) = none)
    (last : ¬ old.requestCounter.toNat + 1 < UInt64.size) :
    Coordinator.requestRandomness callback.isSome x i s = .error (.crashed .arithmetic) := by
  subst hi
  have overConfig : (Site.legacyConfig i.program).Over keys := by simpa using hP
  have overRequest : (Site.legacyRequest i.program old.requestCounter).Over keys := by simpa using hP
  have loaded := load_of_stored hf legible overConfig hconfig stored
  have expected := expect_self hrequest
  have free : s.get? request = none := by rw [hf.get?_eq overRequest hrequest, vacant]; rfl
  have crash : next64 old.requestCounter = .error (.crashed .arithmetic) := if_neg last
  have created (r : LegacyRequest) : create .legacyRequest s request r = .ok (store .legacyRequest s request r) := by
    rw [create, free]
  simp only [Coordinator.requestRandomness, k0, k1, k2, a8, loaded, expected, created, crash, ok_bind]
  cases callback with
  | none => rfl
  | some program =>
    simp only [Option.isSome_some, if_true, k4 program rfl]
    rfl

section

variable {subscription registration : Address} {sid : UInt64} {consumer : Address} {words : UInt32}
  {d e : UInt8} (hf : Fits keys s σ) (hi : i.program = P) (hP : P ∈ keys) (hconsumer : consumer ∈ keys)
  (x : Surroundings) {config : Address} (hconfig : (Site.coordinatorConfig P).address = .ok (config, b))
  (hsubscription : (Site.subscription P sid).address = .ok (subscription, d))
  (hregistration : (Site.registration P sid consumer).address = .ok (registration, e))
  (k1 : key i 1 = .ok config) (k2 : key i 2 = .ok subscription) (k3 : key i 3 = .ok registration)
  (a8 : argument Codec.u32 i 8 = .ok words)

include hf hi hP hconsumer hconfig hsubscription hregistration k1 k2 k3 a8

/-- The fee is only computed for a registered consumer and an allowed number of words, and what is counted is a
request that is paid for. -/
theorem requestRandomWords_calm {request : Address} {id : UInt64}
    (hrequest : (Site.wordsRequest P id).address = .ok (request, c)) (k5 : key i 5 = .ok request)
    (long : 7 ≤ i.accounts.length)
    (priced : ∀ old, σ (.coordinatorConfig P) = some old → σ (.registration P sid consumer) ≠ none →
      words ≠ 0 ∧ words ≤ old.maxNumWords → old.feeFor? words ≠ none)
    (room : ∀ old sub fee, σ (.coordinatorConfig P) = some old → σ (.subscription P sid) = some sub →
      σ (.registration P sid consumer) ≠ none → words ≠ 0 ∧ words ≤ old.maxNumWords →
      old.feeFor? words = some fee → fee ≤ sub.balance → old.requestCounter = id →
      σ (.wordsRequest P id) = none →
      sub.reqCount.toNat + 1 < UInt64.size ∧ old.requestCounter.toNat + 1 < UInt64.size) :
    Calm (Coordinator.requestRandomWords x i s) := by
  subst hi
  have overConfig : (Site.coordinatorConfig i.program).Over keys := by simpa using hP
  have overSubscription : (Site.subscription i.program sid).Over keys := by simpa using hP
  have overRegistration : (Site.registration i.program sid consumer).Over keys := by
    simpa using ⟨hP, hconsumer⟩
  have overRequest (n : UInt64) : (Site.wordsRequest i.program n).Over keys := by simpa using hP
  simp only [Coordinator.requestRandomWords, k1, k2, k3, k5, a8, ok_bind]
  refine (Calm.key _ _).bind fun requester _ => ?_
  refine (Calm.load _ _ _).bind fun old loaded => ?_
  have stored := load_eq_ok hf overConfig hconfig loaded
  refine (Calm.load _ _ _).bind fun sub loaded => ?_
  have subscribed := load_eq_ok hf overSubscription hsubscription loaded
  refine (Calm.load _ _ _).bind fun record loaded => ?_
  have registered : σ (.registration i.program sid consumer) ≠ none := by
    rw [load_eq_ok hf overRegistration hregistration loaded]
    exact Option.some_ne_none record
  refine (Calm.key _ _).bind fun _ _ => ?_
  refine (Calm.require _ _).bind fun _ _ => ?_
  refine (Calm.argument _ _ _).bind fun _ _ => ?_
  refine (Calm.argument _ _ _).bind fun _ _ => ?_
  refine (Calm.require _ _).bind fun _ allowed => ?_
  have words := require_eq_ok.1 allowed
  obtain ⟨fee, price⟩ := Option.ne_none_iff_exists'.1 (priced old stored registered words)
  simp only [price]
  refine (Calm.require _ _).bind fun _ enough => ?_
  have paid := require_eq_ok.1 enough
  refine (Calm.expect _ _ _).bind fun found expected => ?_
  refine (Calm.behind long).bind fun metas _ => ?_
  refine (Calm.require _ _).bind fun _ few => ?_
  refine (Calm.place (require_eq_ok.1 few)).bind fun placed _ => ?_
  refine (Calm.create _ _ _ _).bind fun _ created => ?_
  obtain ⟨same, vacant⟩ := vacant_of_create (t := .wordsRequest i.program old.requestCounter) hf
    (overRequest _) (overRequest id) hrequest expected created
  have counter : old.requestCounter = id := by simpa using same
  rw [counter] at vacant
  obtain ⟨used, counted⟩ := room old sub fee stored subscribed registered words price paid counter vacant
  refine (Calm.minus64 paid).bind fun _ _ => ?_
  refine (Calm.next64 used).bind fun _ _ => ?_
  exact (Calm.next64 counted).bind fun _ _ => .ok _

/-- A fee that is no 64-bit number ends the execution, whatever the balance. -/
theorem requestRandomWords_crashes {requester : Address} {seed : Block 32} {limit : UInt32}
    (legible : σ.Legible) (k0 : key i 0 = .ok requester) (k4 : key i 4 = .ok consumer)
    (a12 : argument (Codec.block 32) i 12 = .ok seed) (a44 : argument Codec.u32 i 44 = .ok limit)
    {old : CoordinatorConfig} {sub : Subscription} {record : ConsumerRegistration}
    (stored : σ (.coordinatorConfig P) = some old) (found : σ (.subscription P sid) = some sub)
    (registered : σ (.registration P sid consumer) = some record)
    (allowed : words ≠ 0 ∧ words ≤ old.maxNumWords) (large : old.feeFor? words = none) :
    Coordinator.requestRandomWords x i s = .error (.crashed .arithmetic) := by
  subst hi
  have overConfig : (Site.coordinatorConfig i.program).Over keys := by simpa using hP
  have overSubscription : (Site.subscription i.program sid).Over keys := by simpa using hP
  have overRegistration : (Site.registration i.program sid consumer).Over keys := by
    simpa using ⟨hP, hconsumer⟩
  have own : record.programId = consumer := (hf.owned _ _ registered).2.1
  have loadConfig := load_of_stored hf legible overConfig hconfig stored
  have loadSubscription := load_of_stored hf legible overSubscription hsubscription found
  have loadRegistration := load_of_stored hf legible overRegistration hregistration registered
  simp only [Coordinator.requestRandomWords, k0, k1, k2, k3, k4, a8, a12, a44, loadConfig, loadSubscription,
    loadRegistration, ok_bind, require_of own, require_of allowed, large]
  rfl

end

theorem consumeRandomness_unauthorized (hf : Fits keys s σ) (legible : σ.Legible) (hi : i.program = P)
    (hP : P ∈ keys) {id : UInt64} {request requester : Address}
    (hrequest : (Site.legacyRequest P id).address = .ok (request, b)) (k0 : key i 0 = .ok requester)
    (k1 : key i 1 = .ok request) {r : LegacyRequest} (found : σ (.legacyRequest P id) = some r)
    (other : r.requester ≠ requester) : Coordinator.consumeRandomness i s = .error (.refused .unauthorized) := by
  subst hi
  have overRequest : (Site.legacyRequest i.program id).Over keys := by simpa using hP
  have loaded := load_of_stored hf legible overRequest hrequest found
  have refused : require (r.requester = requester) .unauthorized = .error (.refused .unauthorized) :=
    if_neg other
  simp only [Coordinator.consumeRandomness, k0, k1, loaded, ok_bind, refused]
  rfl

/-- The number of consumers is only counted down for a consumer that is registered. -/
theorem removeConsumer_calm {sid : UInt64} {consumer subscription registration : Address} {d e : UInt8}
    (hf : Fits keys s σ) (hi : i.program = P) (hP : P ∈ keys) (hconsumer : consumer ∈ keys)
    (hsubscription : (Site.subscription P sid).address = .ok (subscription, d))
    (hregistration : (Site.registration P sid consumer).address = .ok (registration, e))
    (k1 : key i 1 = .ok subscription) (k3 : key i 3 = .ok registration)
    (counted : ∀ sub, σ (.subscription P sid) = some sub → σ (.registration P sid consumer) ≠ none →
      sub.consumerCount ≠ 0) : Calm (Coordinator.removeConsumer i s) := by
  subst hi
  have overSubscription : (Site.subscription i.program sid).Over keys := by simpa using hP
  have overRegistration : (Site.registration i.program sid consumer).Over keys := by
    simpa using ⟨hP, hconsumer⟩
  simp only [Coordinator.removeConsumer, k1, k3, ok_bind]
  refine (Calm.load _ _ _).bind fun sub loaded => ?_
  have stored := load_eq_ok hf overSubscription hsubscription loaded
  refine (Calm.key _ _).bind fun _ _ => ?_
  refine (Calm.require _ _).bind fun _ _ => ?_
  refine (Calm.load _ _ _).bind fun record loaded => ?_
  have registered := load_eq_ok hf overRegistration hregistration loaded
  have positive := counted sub stored (by rw [registered]; exact Option.some_ne_none record)
  exact (Calm.previous32 positive).bind fun _ _ => .ok _

end Coordinator

namespace Command

open Coordinator

variable [Crypto] {keys : Set Address} {s : Accounts} {σ : Registry} {i : Instruction} {P : Address}

theorem requestRandomness_calm (hf : Fits keys s σ) (hP : P ∈ keys) (proper : P ≠ signatureProgram)
    {requester treasury : Address} {callback : Option Address} {id : UInt64} {seed : Bytes}
    (made : (requestRandomness requester treasury callback id seed).instruction P = .ok i)
    (x : Surroundings) (room : requester ∈ x.signers → ∀ old, σ (.legacyConfig P) = some old →
      old.requestCounter = id → σ (.legacyRequest P id) = none → old.requestCounter.toNat + 1 < UInt64.size) :
    Calm (execute x i s) := by
  obtain ⟨seed, config, request, b, c, d, rfl, hconfig, hrequest, made⟩ := requestRandomness_made made
  obtain ⟨ms, accounts, unsigned⟩ := made.accounts
  rw [← made.program] at proper
  refine Calm.signed proper made.data accounts unsigned fun signed _ => ?_
  rw [made.arm]
  exact Coordinator.requestRandomness_calm hf made.program hP x hconfig hrequest made.config made.request
    (room signed)

theorem requestRandomness_crashes (hf : Fits keys s σ) (legible : σ.Legible) (hP : P ∈ keys)
    (proper : P ≠ signatureProgram) {requester treasury : Address} {callback : Option Address} {seed : Bytes}
    {old : LegacyConfig}
    (made : (requestRandomness requester treasury callback old.requestCounter seed).instruction P = .ok i)
    {x : Surroundings} (signed : requester ∈ x.signers) (stored : σ (.legacyConfig P) = some old)
    (vacant : σ (.legacyRequest P old.requestCounter) = none)
    (last : ¬ old.requestCounter.toNat + 1 < UInt64.size) : execute x i s = .error (.crashed .arithmetic) := by
  obtain ⟨seed, config, request, b, c, d, rfl, hconfig, hrequest, made⟩ := requestRandomness_made made
  obtain ⟨ms, accounts, unsigned⟩ := made.accounts
  rw [← made.program] at proper
  refine execute_signed proper made.data accounts unsigned signed fun a8 => ?_
  rw [made.arm]
  exact Coordinator.requestRandomness_crashes hf legible made.program hP x hconfig hrequest made.requester
    made.config made.request made.callback a8 stored vacant last

theorem removeConsumer_calm (hf : Fits keys s σ) (hP : P ∈ keys) (proper : P ≠ signatureProgram)
    {owner consumer : Address} {id : UInt64} (hconsumer : consumer ∈ keys)
    (made : (removeConsumer owner id consumer).instruction P = .ok i)
    (counted : ∀ sub, σ (.subscription P id) = some sub → σ (.registration P id consumer) ≠ none →
      sub.consumerCount ≠ 0) (x : Surroundings) : Calm (execute x i s) := by
  simp only [instruction, Subscriptions.removeConsumer, Subscriptions.subscription,
    Subscriptions.registration, bind_eq_ok, addressOf_eq_ok, pure_eq_ok] at made
  obtain ⟨_, _, subscription, ⟨d, hsub⟩, registration, ⟨e, hreg⟩, rfl⟩ := made
  refine Calm.signed proper rfl rfl (by simp [readonly, writable]) fun _ _ => ?_
  simp +decide only [dispatch, if_true, if_false]
  refine Coordinator.removeConsumer_calm hf ?_ hP hconsumer hsub hreg ?_ ?_ counted <;> rfl

/-- Only who made a legacy request consumes it. -/
theorem consumeRandomness_unauthorized (hf : Fits keys s σ) (legible : σ.Legible) (hP : P ∈ keys)
    (proper : P ≠ signatureProgram) {requester : Address} {id : UInt64}
    (made : (consumeRandomness requester id).instruction P = .ok i) {x : Surroundings}
    (signed : requester ∈ x.signers) {request : LegacyRequest}
    (found : σ (.legacyRequest P id) = some request) (other : request.requester ≠ requester) :
    execute x i s = .error (.refused .unauthorized) := by
  simp only [instruction, Legacy.consumeRandomness, Legacy.request, bind_eq_ok, addressOf_eq_ok,
    pure_eq_ok] at made
  obtain ⟨a, ⟨b, place⟩, rfl⟩ := made
  refine execute_signed proper rfl rfl (by simp [writable]) signed fun _ => ?_
  simp +decide only [dispatch, if_true, if_false]
  exact Coordinator.consumeRandomness_unauthorized hf legible rfl hP place rfl rfl found other

section

variable (hf : Fits keys s σ) (hP : P ∈ keys) (proper : P ≠ signatureProgram) {requester : Address}
  {order : Subscriptions.WordsOrder} (hconsumer : order.consumerProgram ∈ keys)
  (made : (requestRandomWords requester order).instruction P = .ok i) (x : Surroundings)

include hf hP proper hconsumer made

theorem requestRandomWords_calm
    (priced : requester ∈ x.signers → ∀ old, σ (.coordinatorConfig P) = some old →
      σ (.registration P order.subscriptionId order.consumerProgram) ≠ none →
      order.numWords ≠ 0 ∧ order.numWords ≤ old.maxNumWords → old.feeFor? order.numWords ≠ none)
    (room : requester ∈ x.signers → ∀ old sub fee, σ (.coordinatorConfig P) = some old →
      σ (.subscription P order.subscriptionId) = some sub →
      σ (.registration P order.subscriptionId order.consumerProgram) ≠ none →
      order.numWords ≠ 0 ∧ order.numWords ≤ old.maxNumWords → old.feeFor? order.numWords = some fee →
      fee ≤ sub.balance → old.requestCounter = order.requestId → σ (.wordsRequest P order.requestId) = none →
      sub.reqCount.toNat + 1 < UInt64.size ∧ old.requestCounter.toNat + 1 < UInt64.size) :
    Calm (execute x i s) := by
  obtain ⟨config, subscription, registration, request, b, c, d, e, hconfig, hsub, hreg, hrequest, rfl⟩ :=
    requestRandomWords_made made
  refine Calm.signed proper rfl rfl (by simp [readonly, writable]) fun signed arguments => ?_
  obtain ⟨a8, _⟩ := argument_pair arguments
  simp +decide only [dispatch, if_true, if_false]
  refine Coordinator.requestRandomWords_calm hf ?_ hP hconsumer x hconfig hsub hreg ?_ ?_ ?_ a8 hrequest ?_
    (Nat.le_add_left _ _) (priced signed) (room signed) <;> rfl

theorem requestRandomWords_crashes (legible : σ.Legible) (signed : requester ∈ x.signers)
    {old : CoordinatorConfig} {sub : Subscription} {record : ConsumerRegistration}
    (stored : σ (.coordinatorConfig P) = some old)
    (found : σ (.subscription P order.subscriptionId) = some sub)
    (registered : σ (.registration P order.subscriptionId order.consumerProgram) = some record)
    (allowed : order.numWords ≠ 0 ∧ order.numWords ≤ old.maxNumWords)
    (large : old.feeFor? order.numWords = none) : execute x i s = .error (.crashed .arithmetic) := by
  obtain ⟨config, subscription, registration, request, b, c, d, e, hconfig, hsub, hreg, hrequest, rfl⟩ :=
    requestRandomWords_made made
  refine execute_signed proper rfl rfl (by simp [readonly, writable]) signed fun arguments => ?_
  obtain ⟨a8, others⟩ := argument_pair arguments
  obtain ⟨a12, a44⟩ := argument_pair others
  simp +decide only [dispatch, if_true, if_false]
  refine Coordinator.requestRandomWords_crashes hf ?_ hP hconsumer x hconfig hsub hreg ?_ ?_ ?_ a8 legible
    (rfl : key _ 0 = .ok requester) ?_ a12 a44 stored found registered allowed large <;> rfl

end

end Command

end Randomness
