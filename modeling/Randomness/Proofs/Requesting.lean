import Randomness.Proofs.Preflight
import Randomness.Proofs.Refinement

/-!
What a call of `submit` comes to: one request with everything that belongs to it, or nothing.
-/

namespace Randomness

/-- A record that is written: its site, what was there before, and what is there now. -/
structure Write where
  site : Site
  old : Option site.kind.Record
  new : site.kind.Record

section

variable [Crypto]

/-- From one ledger to the other exactly these records are written. -/
structure Ledger.Rewrites (before after : Ledger) (ws : List Write) : Prop where
  written : ∀ w ∈ ws, ∃ a b, w.site.address = .ok (a, b) ∧ before.get? a = w.old.map w.site.kind.encode ∧
    after.get? a = some (w.site.kind.encode w.new)
  others : ∀ a, (∀ w ∈ ws, ∀ b, w.site.address ≠ .ok (a, b)) → after.get? a = before.get? a

variable {keys : Set Address} {l l' : Ledger} {σ τ : Registry}

/-- A command rewrites the sites that it may write, if it puts a record at each of them. -/
theorem Command.Does.rewrites {x : Scene} {P : Address} {c : Command} {log : List LogEntry}
    (does : c.Does x σ P (τ, log)) (backed : Backed keys l.accounts σ l.slot)
    (backed' : Backed keys l'.accounts τ l'.slot) (ws : List Write) (sites : c.writes P = ws.map Write.site)
    (old : ∀ w ∈ ws, σ w.site = w.old) (new : ∀ w ∈ ws, τ w.site = some w.new) : l.Rewrites l' ws where
  written := by
    intro w hw
    obtain ⟨a, b, place, stored⟩ := backed'.fits.stored w.site w.new (new w hw)
    have inside : w.site.Over keys := backed'.fits.inside w.site w.new (new w hw)
    exact ⟨a, b, place, by rw [Ledger.get?, backed.fits.get?_eq inside place, old w hw], stored⟩
  others := by
    intro a apart
    refine backed.fits.toMatches.get?_eq backed'.fits.toMatches fun t b place => does.frame fun written => ?_
    rw [sites, List.mem_map] at written
    obtain ⟨w, hw, rfl⟩ := written
    exact apart w hw b place

theorem Ledger.perform_observe_stored {h : RequestHandle} {data : Bytes} {r : RequestAccount}
    (stored : l.get? h.address = some data) (read : RequestAccount.decode h.generation data = .ok r) :
    l.perform (Client.observe h) = ⟨l, [], .ok (.ok (.found ⟨h.address, r⟩))⟩ := by
  rw [Client.observe, perform_account, stored]
  simp only [perform_decoded, read]
  rfl

namespace Call

/-! ## The request -/

section

variable (c : Call) (seed : Block 32) (id slot : UInt64)

/-- What a legacy call requests. -/
def legacyRequest (callback : Option Address) : LegacyRequest where
  requestId := id
  requester := c.requester
  seed
  requestSlot := slot
  callbackProgram := callback.getD Address.zero
  status := .pending
  randomness := Block.zero 32
  fulfilledSlot := 0
  bump := (Site.legacyRequest c.program id).bump

/-- What a call requests for a subscription. -/
def wordsRequest (b : Binding) : WordsRequest where
  requestId := id
  subscriptionId := b.subscriptionId
  consumerProgram := b.consumerProgram
  requester := c.requester
  numWords := c.words
  seed
  requestSlot := slot
  callbackComputeLimit := b.callbackComputeLimit
  status := .pending
  randomness := Block.zero 32
  fulfilledSlot := 0
  numCallbackAccounts := UInt8.ofNat b.callbackAccounts.length
  callbackAccounts := Coordinator.callbackSlots b.callbackAccounts
  callbackWritableBitmap := Coordinator.writableBitmap b.callbackAccounts
  bump := (Site.wordsRequest c.program id).bump

end

/-- The request `id` is made, and the counter counts it; a subscription pays for it and counts it too. -/
inductive Effect (c : Call) (before after : Ledger) (id : UInt64) : RequestAccount → Prop
  | legacy {callback : Option Address} {seed : Block 32} {config : LegacyConfig} {counter : UInt64}
      (mode : c.client.mode = .legacy callback) (given : c.seed = seed.bytes)
      (next : config.requestCounter = id) (counted : counter.toNat = id.toNat + 1)
      (rewrites : before.Rewrites after [
        ⟨.legacyRequest c.program id, none, c.legacyRequest seed id after.slot callback⟩,
        ⟨.legacyConfig c.program, some config, { config with requestCounter := counter }⟩]) :
      Effect c before after id (.legacy (c.legacyRequest seed id after.slot callback))
  | subscription {b : Binding} {seed : Block 32} {config : CoordinatorConfig} {sub : Subscription}
      {counter balance count : UInt64} (mode : c.client.mode = .subscription b) (given : c.seed = seed.bytes)
      (next : config.requestCounter = id) (counted : counter.toNat = id.toNat + 1)
      (paid : balance.toNat + config.feePerWord.toNat * c.words.toNat = sub.balance.toNat)
      (used : count.toNat = sub.reqCount.toNat + 1)
      (rewrites : before.Rewrites after [
        ⟨.wordsRequest c.program id, none, c.wordsRequest seed id after.slot b⟩,
        ⟨.coordinatorConfig c.program, some config, { config with requestCounter := counter }⟩,
        ⟨.subscription c.program b.subscriptionId, some sub, { sub with balance, reqCount := count }⟩]) :
      Effect c before after id (.subscription (c.wordsRequest seed id after.slot b))

/-- One transaction has made one request, which the handle names. -/
structure Requests (c : Call) (l : Ledger) (s : Solo (Except ClientError RequestHandle)) (h : RequestHandle) :
    Prop where
  executed : ∃ x : Exchange Unit, s.exchanges = [x] ∧ x.Executed ∧ x.before = l ∧ x.after = s.ledger
  slot : s.ledger.slot.toNat = l.slot.toNat + 1
  transactions : s.ledger.transactions.toNat = l.transactions.toNat + 1
  seen : h.seen = true
  generation : h.generation = c.generation
  place : ∃ b, Site.address ⟨c.program, .request c.generation h.requestId⟩ = .ok (h.address, b)
  effect : ∃ r, c.Effect l s.ledger h.requestId r ∧
    s.ledger.perform (Client.observe h) = ⟨s.ledger, [], .ok (.ok (.found ⟨h.address, r⟩))⟩

variable {c : Call} {treasury : Address} {seed : Block 32} {n : UInt64} {i : Instruction}

/-- What the call's command writes. -/
theorem effect_of_does {x : Scene} {log : List LogEntry} (given : c.seed = seed.bytes)
    (does : (c.command treasury seed n).Does x σ c.program (τ, log)) (slot : x.slot = l'.slot)
    (backed : Backed keys l.accounts σ l.slot) (backed' : Backed keys l'.accounts τ l'.slot) :
    ∃ r, c.Effect l l' n r ∧ τ.request? c.generation c.program n = some r := by
  have rewrites := does.rewrites backed backed'
  obtain ⟨⟨P, mode⟩, requester, bytes, numWords⟩ := c
  cases mode with
  | legacy callback =>
    change Command.Does x σ P (.requestRandomness requester treasury callback n seed.bytes) (τ, log) at does
    cases does with
    | requestRandomness known stored next vacant counted =>
      rw [Block.ofBytes?_bytes] at known
      cases known
      have count := Coordinator.next64_eq_ok counted
      rw [next] at count
      refine ⟨_, .legacy rfl given next count (rewrites _ rfl ?_ ?_), ?_⟩
      · exact List.forall_mem_cons.2 ⟨vacant, List.forall_mem_singleton.2 stored⟩
      · refine List.forall_mem_cons.2 ⟨?_, List.forall_mem_singleton.2 (Registry.put_self ..)⟩
        rw [Registry.put_of_ne _ _ (by simp), Registry.put_self, slot]
        rfl
      · change Registry.request? _ .legacy P n = _
        rw [Registry.request?_put_of_ne _ (by simp), Registry.request?_put_legacyRequest, slot]
        rfl
  | subscription b =>
    change Command.Does x σ P
      (.requestRandomWords requester { requestId := n, subscriptionId := b.subscriptionId, .. }) (τ, log) at does
    cases does with
    | requestRandomWords stored found registered allowed price paid next few vacant used counted =>
      have count := Coordinator.next64_eq_ok counted
      rw [next] at count
      -- The fee is a 64-bit number and covered, so neither the price nor the rest has wrapped around.
      have rest := Nat.sub_add_cancel (UInt64.le_iff_toNat_le.1 paid)
      rw [← UInt64.toNat_sub_of_le _ _ paid, CoordinatorConfig.toNat_of_feeFor? price] at rest
      refine ⟨_, .subscription rfl given next count rest (Coordinator.next64_eq_ok used) (rewrites _ rfl ?_ ?_), ?_⟩
      · exact List.forall_mem_cons.2 ⟨vacant, List.forall_mem_cons.2 ⟨stored, List.forall_mem_singleton.2 found⟩⟩
      · refine List.forall_mem_cons.2 ⟨?_, List.forall_mem_cons.2 ⟨?_, List.forall_mem_singleton.2
          (Registry.put_self ..)⟩⟩
        · rw [Registry.put_of_ne _ _ (by simp), Registry.put_of_ne _ _ (by simp), Registry.put_self, slot]
          rfl
        · rw [Registry.put_of_ne _ _ (by simp), Registry.put_self]
      · change Registry.request? _ .subscription P n = _
        rw [Registry.request?_put_of_ne _ (by simp), Registry.request?_put_of_ne _ (by simp),
          Registry.request?_put_wordsRequest, slot]
        rfl

/-- If its transaction is executed, the call has made its request. -/
theorem requests_of_submit {x : Execution} (inside : c.Over keys) (proper : c.program ≠ Instruction.signatureProgram)
    (backed : Backed keys l.accounts σ l.slot) (given : c.seed = seed.bytes)
    (made : (c.command treasury seed n).instruction c.program = .ok i)
    (accepted : l.submit [i] [c.requester] = .ok (l', x)) :
    ∃ h, (c.transacting l n i).outcome = .ok (.ok h) ∧ c.Requests l (c.transacting l n i) h := by
  obtain ⟨y, τ, log, slot, stepped, backed', _⟩ := Ledger.submit_one backed inside.command made accepted
  obtain ⟨_, _, h, ends, rfl, creates⟩ := executed inside proper backed given made accepted
  obtain ⟨clock, counted⟩ := Ledger.submit_counts accepted
  obtain ⟨r, effect, requested⟩ :=
    effect_of_does given (Operation.does_of_step proper stepped) slot backed backed'
  obtain ⟨b, place⟩ := creates.place
  obtain ⟨a, _, data, place', stored, read⟩ := backed'.request_stored requested
  -- The handle's address was derived again from the id in the events; it is where the request was stored.
  obtain ⟨rfl, _⟩ := Prod.mk.inj (Except.ok.inj (place.symm.trans place'))
  rw [← creates.generation] at read
  have goes : c.transacting l h.requestId i =
      ⟨l', [⟨(), l, l', .submit [i] [c.requester], .ok (.ok x)⟩], .ok (.ok h)⟩ := by
    simp only [transacting, Ledger.told_of_submit accepted, Except.map, ends]
  rw [goes]
  exact ⟨h, rfl, ⟨_, rfl, ⟨_, _, x, rfl, accepted⟩, rfl, rfl⟩, clock, counted, seen_of_ending ends,
    creates.generation, creates.place, r, effect, Ledger.perform_observe_stored stored read⟩

/-- If it is not, there is no handle, and the ledger is as it was. -/
theorem transacting_of_error {f : Ledger.Failure} (failed : l.submit [i] [c.requester] = .error f) :
    (c.transacting l n i).ledger = l ∧ ∀ h, (c.transacting l n i).outcome ≠ .ok (.ok h) := by
  obtain ⟨k, r | f⟩ := f <;> simp only [transacting, Ledger.told, Ledger.answer, failed] <;>
    exact ⟨trivial, fun h same => by cases same⟩

/-! ## Which calls fail -/

/-- What the call adds one to is at its maximum, or the fee is no 64-bit number. -/
def Exhausts (c : Call) (l : Ledger) : Prop :=
  c.Overflows l ∨ l.count c.generation c.program + 1 = UInt64.size ∨ ∃ b sub, c.client.mode = .subscription b ∧
    l.accounts.records (.subscription c.program b.subscriptionId) = some sub ∧
      sub.reqCount.toNat + 1 = UInt64.size

/-- What a legacy call fails for, with this configuration. -/
inductive Unfit (c : Call) (callback : Option Address) (config : Option LegacyConfig) : Prop
  | seed (h : c.seed.length ≠ 32)
  | words (h : ∃ m ∈ c.numWords, m ≠ 1)
  | absent (h : config = none)
  | callback (h : callback = some Address.zero)
  | address {r : LegacyConfig} (stored : config = some r) (h : ¬ c.Derivable (.request .legacy r.requestCounter))

/-- A call that sends this transaction. -/
structure Transacts (c : Call) (l : Ledger) (seed : Block 32) (treasury : Address) (n : UInt64) (i : Instruction) :
    Prop where
  given : c.seed = seed.bytes
  made : (c.command treasury seed n).instruction c.program = .ok i
  goes : c.perform l = c.transacting l n i

theorem perform_of_length_ne (h : c.seed.length ≠ 32) : (c.perform l).Fails l := by
  cases hs : Instruction.seedOf c.seed with
  | error e =>
    rw [perform, Client.submit, hs]
    exact ⟨_, rfl⟩
  | ok seed =>
    have given : c.seed = seed.bytes :=
      Instruction.seedOf_eq_ok (f := BuildError.argument).1 (by rw [hs]; rfl)
    rw [given] at h
    exact absurd seed.length_eq h

omit [Crypto] in
theorem words_eq_one_iff : c.words = 1 ↔ ¬ ∃ m ∈ c.numWords, m ≠ 1 := by
  rw [words]
  cases c.numWords <;> simp

/-- The instruction of a legacy call is made unless the callback is the zero address. -/
theorem exists_made_legacy_iff {callback : Option Address} (mode : c.client.mode = .legacy callback)
    (config : c.Derivable (.config .legacy)) :
    (∃ i, (c.command treasury seed n).instruction c.program = .ok i) ↔
      callback ≠ some Address.zero ∧ c.Derivable (.request .legacy n) := by
  obtain ⟨_, _, config⟩ := config
  rw [command, mode]
  constructor
  · rintro ⟨i, made⟩
    cases callback with
    | none =>
      simp only [Command.instruction, Legacy.requestRandomness, Legacy.request, bind_eq_ok,
        Instruction.addressOf_eq_ok, pure_eq_ok] at made
      obtain ⟨_, _, _, _, a, ⟨e, place⟩, _⟩ := made
      exact ⟨(Option.some_ne_none _).symm, a, e, place⟩
    | some p =>
      simp only [Command.instruction, Legacy.requestRandomnessWithCallback, Legacy.request, bind_eq_ok,
        Instruction.addressOf_eq_ok, pure_eq_ok, Instruction.requireNonZero] at made
      obtain ⟨_, _, _, nonzero, _, _, a, ⟨e, place⟩, _⟩ := made
      refine ⟨fun zero => ?_, a, e, place⟩
      rw [if_pos (Option.some.inj zero)] at nonzero
      cases nonzero
  · rintro ⟨named, _, _, request⟩
    cases callback with
    | none =>
      simp only [Command.instruction, Legacy.requestRandomness, Legacy.config, Legacy.request, bind_eq_ok,
        Instruction.seedOf_eq_ok, Instruction.addressOf_eq_ok, pure_eq_ok]
      exact ⟨_, seed, rfl, _, ⟨_, config⟩, _, ⟨_, request⟩, rfl⟩
    | some p =>
      have nonzero : p ≠ Address.zero := fun zero => named (congrArg some zero)
      simp only [Command.instruction, Legacy.requestRandomnessWithCallback, Legacy.config, Legacy.request,
        bind_eq_ok, Instruction.seedOf_eq_ok, Instruction.addressOf_eq_ok, pure_eq_ok,
        Instruction.requireNonZero, if_neg nonzero]
      exact ⟨_, seed, rfl, (), trivial, _, ⟨_, config⟩, _, ⟨_, request⟩, rfl⟩

/-- With a seed, for one word and with a configuration, nothing else makes a legacy call unfit. -/
theorem unfit_iff_not_made (seed : Block 32) {callback : Option Address} (mode : c.client.mode = .legacy callback)
    (length : c.seed.length = 32) (one : c.words = 1) (config : LegacyConfig)
    (derivable : c.Derivable (.config .legacy)) : c.Unfit callback (some config) ↔
      ¬ ∃ i, (c.command config.treasury seed config.requestCounter).instruction c.program = .ok i := by
  rw [exists_made_legacy_iff mode derivable]
  constructor
  · rintro (h | h | h | h | ⟨stored, h⟩) ⟨named, derivable⟩
    · exact h length
    · exact words_eq_one_iff.1 one h
    · cases h
    · exact named h
    · cases stored
      exact h derivable
  · intro no
    by_contra fit
    exact no ⟨fun zero => fit (.callback zero), by_contra fun h => fit (.address rfl h)⟩

/-- A legacy call for one word reads the configuration first. -/
theorem perform_legacy {callback : Option Address} (mode : c.client.mode = .legacy callback)
    (given : c.seed = seed.bytes) (one : c.words = 1) :
    c.perform l = l.perform (c.client.fetchLegacyConfig >>= fun config => c.sending config.requestCounter
      ((c.command config.treasury seed config.requestCounter).instruction c.program)) :=
  congrArg l.perform ((start_legacy mode given).trans (if_pos one))

section

variable (backed : Backed keys l.accounts σ l.slot) (inside : c.Over keys) {callback : Option Address}
  (mode : c.client.mode = .legacy callback)

include backed inside mode

/-- A legacy call is unfit and fails, or it sends a transaction. -/
theorem perform_legacy_cases : c.Unfit callback (σ (.legacyConfig c.program)) ∧ (c.perform l).Fails l ∨
    ¬ c.Unfit callback (σ (.legacyConfig c.program)) ∧ ∃ seed config i, σ (.legacyConfig c.program) = some config ∧
      c.Transacts l seed config.treasury config.requestCounter i := by
  by_cases length : c.seed.length = 32
  swap
  · exact .inl ⟨.seed length, perform_of_length_ne length⟩
  obtain ⟨seed, given⟩ : ∃ seed : Block 32, c.seed = seed.bytes := ⟨⟨c.seed, length⟩, rfl⟩
  by_cases one : c.words = 1
  swap
  · have start : c.client.submit c.requester c.seed c.numWords = _ := (start_legacy mode given).trans (if_neg one)
    refine .inl ⟨.words (not_not.1 fun none => one (words_eq_one_iff.2 none)), ?_⟩
    rw [perform, start]
    exact ⟨_, rfl⟩
  have start : c.perform l = _ := perform_legacy mode given one
  rw [Client.fetchLegacyConfig, bind_assoc] at start
  rcases backed.perform_fetch (p := .config .legacy) (Site.over_config.2 inside.1) with
    ⟨config, stored, goes⟩ | ⟨vacant, fails⟩
  swap
  · rw [start]
    exact .inl ⟨.absent vacant, fails⟩
  have goes := start.trans goes
  obtain ⟨a, e, place, _⟩ := backed.fits.stored _ _ stored
  have unfit := unfit_iff_not_made seed mode length one config ⟨a, e, place⟩
  rw [show σ (.legacyConfig c.program) = some config from stored, unfit]
  cases made : (c.command config.treasury seed config.requestCounter).instruction c.program with
  | error f =>
    rw [goes, made]
    refine .inl ⟨?_, perform_sending_error⟩
    rintro ⟨i, same⟩
    cases same
  | ok i =>
    rw [made, perform_sending] at goes
    exact .inr ⟨not_not.2 ⟨i, rfl⟩, seed, config, i, rfl, given, made, goes⟩

/-- The transaction of a legacy call is executed, or it crashes the ledger. -/
theorem accepted_or_crashed (paced : l.Paced) {config : LegacyConfig}
    (stored : σ (.legacyConfig c.program) = some config)
    (made : (c.command config.treasury seed config.requestCounter).instruction c.program = .ok i) :
    (∃ l' x, l.submit [i] [c.requester] = .ok (l', x)) ∨
      c.Exhausts l ∧ l.told (.submit [i] [c.requester]) = (l, .error .arithmetic) := by
  have counter : σ.requestCount .legacy c.program = config.requestCounter.toNat :=
    Registry.requestCount_of_legacyConfig stored
  have vacant : σ (.legacyRequest c.program config.requestCounter) = none :=
    Option.map_eq_none_iff.1 (backed.next_vacant counter)
  by_cases slot : l.slot.toNat + 1 < UInt64.size
  swap
  · have full : l.slot.toNat + 1 = UInt64.size := not_not.1 fun h => slot (Coordinator.succ_lt_size_iff.2 h)
    exact .inr ⟨.inl (.inl full), Ledger.told_without_slot slot⟩
  by_cases last : config.requestCounter.toNat + 1 < UInt64.size
  · refine .inl (Ledger.accepts_one backed inside.command made (List.mem_singleton.2 signer_command) (fun x => ?_) slot
      (paced.room slot))
    rw [command, mode]
    exact ⟨_, .requestRandomness (Block.ofBytes?_bytes seed) stored rfl vacant (if_pos last)⟩
  · -- The id of the last request is not counted any more: that is a crash, although the request is in order.
    have legacy : c.generation = .legacy := congrArg Mode.generation mode
    have full := not_not.1 fun h => last (Coordinator.succ_lt_size_iff.2 h)
    rw [command, mode] at made
    have ran := Command.requestRandomness_crashes (x := ⟨l.slot + 1, [i], [c.requester]⟩) backed.fits backed.legible
      inside.1 (backed.proper stored) made (List.mem_singleton_self _) stored vacant last
    refine .inr ⟨.inr (.inl ?_), ?_⟩
    · rw [Ledger.count, backed.requestCount_eq inside.1, legacy, counter, full]
    · simp only [Ledger.told, Ledger.answer, Ledger.submit_of_error slot ran]

end

section

variable (backed : Backed keys l.accounts σ l.slot) (inside : c.Over keys) {b : Binding}
  (mode : c.client.mode = .subscription b)

include backed inside mode

/-- The transaction for a subscription is executed, unless something is exhausted. -/
theorem Passes.accepted_or_exhausts {config : CoordinatorConfig} {sub : Subscription} (paced : l.Paced)
    (eligible : c.Eligible b σ config) (passes : c.Passes b σ config sub)
    (made : (c.command Address.zero seed config.requestCounter).instruction c.program = .ok i) :
    (∃ l' x, l.submit [i] [c.requester] = .ok (l', x)) ∨ c.Exhausts l := by
  by_contra neither
  obtain ⟨refused, fresh⟩ := not_or.1 neither
  have subscription : c.generation = .subscription := congrArg Mode.generation mode
  have slot : l.slot.toNat + 1 < UInt64.size := Coordinator.succ_lt_size_iff.2 fun h => fresh (.inl (.inl h))
  have requests : config.requestCounter.toNat + 1 < UInt64.size := by
    have counter := Registry.requestCount_of_coordinatorConfig passes.stored
    have last : l.count c.generation c.program + 1 ≠ UInt64.size := fun h => fresh (.inr (.inl h))
    rw [Ledger.count, backed.requestCount_eq inside.1, subscription, counter] at last
    exact Coordinator.succ_lt_size_iff.2 last
  have used : sub.reqCount.toNat + 1 < UInt64.size := by
    have found := (backed.records_eq (Site.over_subscription.2 inside.1)).trans passes.found
    exact Coordinator.succ_lt_size_iff.2 fun h => fresh (.inr (.inr ⟨b, sub, mode, found, h⟩))
  have affordable : config.feePerWord.toNat * c.words.toNat ≤ sub.balance.toNat := by
    rcases (config.required_le_iff c.words sub.balance).1 passes.paid with paid | ⟨large, _⟩
    · exact paid
    · have allowed := passes.toAllowed.congr (fun t ht => backed.records_eq ht) inside mode
      exact absurd (.inl (.inr ⟨b, config, mode, allowed, if_neg (Nat.not_lt.2 large)⟩)) fresh
  exact refused (Ledger.accepts_one backed inside.command made (List.mem_singleton.2 signer_command)
    (eligible.does backed mode passes.found affordable requests used) slot (paced.room slot))

end

/-- A call that returns a handle has made the request. -/
def Serves (c : Call) (l : Ledger) : Prop :=
  ∃ h, (c.perform l).outcome = .ok (.ok h) ∧ c.Requests l (c.perform l) h

/-- A call that returns no handle, and has no effect. -/
structure Abstains (c : Call) (l : Ledger) : Prop where
  ledger : (c.perform l).ledger = l
  empty : ∀ h, (c.perform l).outcome ≠ .ok (.ok h)
  crashes : ∀ f, (c.perform l).outcome = .error f → c.Exhausts l

theorem abstains_of_fails (fails : (c.perform l).Fails l) : c.Abstains l := by
  obtain ⟨e, goes⟩ := fails
  constructor <;> rw [goes]
  · exact nofun
  · exact nofun

theorem Transacts.cases (h : c.Transacts l seed treasury n i) (inside : c.Over keys)
    (proper : c.program ≠ Instruction.signatureProgram) (backed : Backed keys l.accounts σ l.slot)
    (either : (∃ l' x, l.submit [i] [c.requester] = .ok (l', x)) ∨ c.Exhausts l) : c.Serves l ∨ c.Abstains l := by
  cases submitted : l.submit [i] [c.requester] with
  | ok r =>
    have requests := requests_of_submit inside proper backed h.given h.made submitted
    rw [← h.goes] at requests
    exact .inl requests
  | error f =>
    have full : c.Exhausts l := either.resolve_left fun ⟨l', x, accepted⟩ => by
      rw [submitted] at accepted
      cases accepted
    obtain ⟨same, none⟩ := transacting_of_error (c := c) (n := n) submitted
    rw [← h.goes] at same none
    exact .inr ⟨same, none, fun _ _ => full⟩

/-- A call makes one request, or it has no effect. -/
theorem serves_or_abstains (backed : Backed keys l.accounts σ l.slot) (inside : c.Over keys) (paced : l.Paced) :
    c.Serves l ∨ c.Abstains l := by
  cases mode : c.client.mode with
  | legacy callback =>
    rcases perform_legacy_cases backed inside mode with ⟨_, fails⟩ | ⟨_, seed, config, i, stored, transacts⟩
    · exact .inr (abstains_of_fails fails)
    · exact transacts.cases inside (backed.proper stored) backed
        ((accepted_or_crashed backed inside mode paced stored transacts.made).imp_right And.left)
  | subscription b =>
    by_cases length : c.seed.length = 32
    swap
    · exact .inr (abstains_of_fails (perform_of_length_ne length))
    obtain ⟨seed, given⟩ : ∃ seed : Block 32, c.seed = seed.bytes := ⟨⟨c.seed, length⟩, rfl⟩
    rcases perform_subscription_cases backed inside mode given with
      fails | ⟨config, sub, i, eligible, passes, made, goes⟩
    · exact .inr (abstains_of_fails fails)
    · exact Transacts.cases ⟨given, made, goes⟩ inside (backed.proper passes.stored) backed
        (passes.accepted_or_exhausts backed inside mode paced eligible made)

/-- A legacy call ends with an error exactly if it is unfit. -/
theorem legacy_error_iff (backed : Backed keys l.accounts σ l.slot) (inside : c.Over keys) (paced : l.Paced)
    {callback : Option Address} (mode : c.client.mode = .legacy callback) :
    (∃ e, (c.perform l).outcome = .ok (.error e)) ↔ c.Unfit callback (σ (.legacyConfig c.program)) := by
  rcases perform_legacy_cases backed inside mode with ⟨unfit, e, goes⟩ | ⟨fit, seed, config, i, stored, transacts⟩
  · rw [goes]
    exact ⟨fun _ => unfit, fun _ => ⟨e, rfl⟩⟩
  · refine ⟨fun ⟨e, failed⟩ => ?_, fun unfit => absurd unfit fit⟩
    rw [transacts.goes] at failed
    rcases accepted_or_crashed backed inside mode paced stored transacts.made with ⟨l', x, accepted⟩ | ⟨_, crashed⟩
    · obtain ⟨h, served, _⟩ := requests_of_submit inside (backed.proper stored) backed transacts.given
        transacts.made accepted
      rw [served] at failed
      cases failed
    · rw [transacting, crashed] at failed
      cases failed

end Call

end

/-- What a call of `submit` comes to after any transactions. A handle stands for one new request, made by one
transaction with everything that belongs to it. An error or a crash leaves the ledger as it was; a crash means
that a counter or a fee has run over, and a legacy call ends with an error exactly if it is unfit. -/
theorem Call.serves_or_leaves [Crypto] {keys : Set Address} (distinct : DistinctAddresses keys)
    (ts : List Submission) (past : ∀ t ∈ ts, t.Over keys) (c : Call) (inside : c.Over keys) :
    let l := (Ledger.history ts).1
    let s := c.perform l
    (∀ h, s.outcome = .ok (.ok h) → c.Requests l s h) ∧
    (∀ e, s.outcome = .ok (.error e) → s.ledger = l) ∧
    (∀ f, s.outcome = .error f → s.ledger = l ∧ c.Exhausts l) ∧
    ∀ callback, c.client.mode = .legacy callback → ((∃ e, s.outcome = .ok (.error e)) ↔
      c.Unfit callback (l.accounts.records (.legacyConfig c.program))) := by
  intro l s
  obtain ⟨σ, backed⟩ := Ledger.backed distinct ts past
  have paced : l.Paced := Ledger.Paced.history ts
  have legacy (callback : Option Address) (mode : c.client.mode = .legacy callback) :
      (∃ e, s.outcome = .ok (.error e)) ↔ c.Unfit callback (l.accounts.records (.legacyConfig c.program)) := by
    have same : l.accounts.records (.legacyConfig c.program) = σ (.legacyConfig c.program) :=
      backed.records_eq (Site.over_config.2 inside.1)
    rw [same]
    exact Call.legacy_error_iff backed inside paced mode
  rcases Call.serves_or_abstains backed inside paced with ⟨h, served, requests⟩ | abstains
  · refine ⟨fun h' returned => ?_, fun e failed => ?_, fun f crashed => ?_, legacy⟩
    · obtain rfl : h = h' := Except.ok.inj (Except.ok.inj (served.symm.trans returned))
      exact requests
    · cases served.symm.trans failed
    · cases served.symm.trans crashed
  · exact ⟨fun h returned => absurd returned (abstains.empty h), fun _ _ => abstains.ledger,
      fun f crashed => ⟨abstains.ledger, abstains.crashes f crashed⟩, legacy⟩

namespace Recorded

/-- A second legacy request. -/
def caller (callback : Option Address) : Call where
  client := ⟨program, .legacy callback⟩
  requester := consumer
  seed := List.replicate 32 1
  numWords := none

/-- Whether a call has returned a handle. -/
def returns {α : Type} (s : Solo (Except ClientError α)) : Bool :=
  (s.outcome.toOption.bind Except.toOption).isSome

theorem of_returns {α : Type} {s : Solo (Except ClientError α)} (h : returns s = true) :
    ∃ a, s.outcome = .ok (.ok a) := by
  obtain ⟨l, E, f | e | a⟩ := s
  · cases h
  · cases h
  · exact ⟨a, rfl⟩

/-- A subscription pays for two words, and a legacy request names its callback. The zero address is no callback. -/
theorem calls_served :
    let _ := crypto
    asker.Serves (offered 3 10) ∧ (caller (some consumer)).Serves (Ledger.history [opening]).1 ∧
      ∃ e, ((caller (some Address.zero)).perform (Ledger.history [opening]).1).outcome = .ok (.error e) := by
  intro _
  have run : returns (asker.perform (offered 3 10)) = true ∧
      returns ((caller (some consumer)).perform (@Ledger.history crypto [opening]).1) = true := by decide +kernel
  obtain ⟨h, asked⟩ := of_returns run.1
  obtain ⟨h', called⟩ := of_returns run.2
  have offered : ∀ t ∈ [offering 3 10], t.Over Set.univ := by
    simp [Submission.Over, offering, Operation.Over]
  have opened : ∀ t ∈ [opening], t.Over Set.univ := by
    simp [Submission.Over, opening, Operation.Over]
  have inside : asker.Over Set.univ := ⟨Set.mem_univ _, fun _ _ => Set.mem_univ _⟩
  have within (callback : Option Address) : (caller callback).Over Set.univ :=
    ⟨Set.mem_univ _, fun _ _ => Set.mem_univ _⟩
  have first := Call.serves_or_leaves distinct [offering 3 10] offered asker inside
  have second := Call.serves_or_leaves distinct [opening] opened (caller (some consumer)) (within _)
  have third := Call.serves_or_leaves distinct [opening] opened (caller (some Address.zero)) (within _)
  exact ⟨⟨h, asked, first.1 h asked⟩, ⟨h', called, second.1 h' called⟩, (third.2.2.2 _ rfl).2 (.callback rfl)⟩

end Recorded

end Randomness
