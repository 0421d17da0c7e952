import Randomness.Proofs.Backing
import Randomness.Proofs.Call
import Randomness.Proofs.Calm
import Randomness.Proofs.EventLog

/-!
The transaction of a call. If it is executed, it creates the request that the call's handle names, under the
id that the counter had; if the counter has moved on since it was read, it is refused.
-/

namespace Randomness

def RequestAccount.seed : RequestAccount → Block 32
  | legacy r => r.seed
  | subscription r => r.seed

namespace Call

section

variable {keys : Set Address} {c : Call} {treasury : Address} {seed : Block 32} {n : UInt64}

theorem requested?_command : (c.command treasury seed n).requested? c.generation = some n := by
  obtain ⟨⟨P, mode⟩, requester, bytes, numWords⟩ := c
  cases mode <;> rfl

theorem requested?_operation (proper : c.program ≠ Instruction.signatureProgram) :
    (Operation.command c.program (c.command treasury seed n)).requested? c.generation c.program = some n := by
  rw [Operation.requested?_command proper, if_pos rfl]
  exact requested?_command

theorem signer_command : (c.command treasury seed n).signer = c.requester := by
  obtain ⟨⟨P, mode⟩, requester, bytes, numWords⟩ := c
  cases mode <;> rfl

theorem Over.command (inside : c.Over keys) :
    (Operation.command c.program (c.command treasury seed n)).Over keys := by
  refine ⟨inside.1, ?_⟩
  obtain ⟨⟨P, mode⟩, requester, bytes, numWords⟩ := c
  cases mode with
  | legacy callback =>
    intro P named
    cases named
  | subscription b =>
    intro P named
    cases named
    exact inside.2 b rfl

end

/-- What a request for words needs before its fee is looked at. -/
structure Allowed (c : Call) (b : Binding) (σ : Registry) (config : CoordinatorConfig) : Prop where
  stored : σ (.coordinatorConfig c.program) = some config
  least : 1 ≤ c.words
  most : c.words ≤ config.maxNumWords
  registered : σ (.registration c.program b.subscriptionId b.consumerProgram) ≠ none

namespace Allowed

variable {keys : Set Address} {c : Call} {b : Binding} {σ τ : Registry} {config : CoordinatorConfig}

theorem positive (h : c.Allowed b σ config) : c.words ≠ 0 := Coordinator.one_le_iff.1 h.least

/-- It only looks at sites over the call's program and consumer. -/
theorem congr (h : c.Allowed b σ config) (same : ∀ t : Site, t.Over keys → τ t = σ t) (inside : c.Over keys)
    (mode : c.client.mode = .subscription b) : c.Allowed b τ config :=
  { h with
    stored := (same _ (Site.over_config.2 inside.1)).trans h.stored
    registered := by
      rw [same _ (Site.over_consumer.2 ⟨inside.1, inside.2 b mode⟩)]
      exact h.registered }

end Allowed

variable [Crypto] {keys : Set Address} {c : Call} {treasury : Address} {seed : Block 32} {n : UInt64}

/-- What the call's command leaves: a pending request of the caller, and the event that tells its id. -/
theorem requests {x : Scene} {σ τ : Registry} {log : List LogEntry}
    (h : (c.command treasury seed n).Does x σ c.program (τ, log)) :
    σ.request? c.generation c.program n = none ∧
      (∃ r, τ.request? c.generation c.program n = some r ∧ r.requester = c.requester ∧ r.seed = seed ∧
        r.status = .pending) ∧
      ∃ e, log = [.event e] ∧ c.client.requestedBy? c.requester e = some n := by
  obtain ⟨⟨P, mode⟩, requester, bytes, numWords⟩ := c
  cases mode with
  | legacy callback =>
    change Command.Does x σ P (.requestRandomness requester treasury callback n seed.bytes) (τ, log) at h
    cases h with
    | requestRandomness given stored next vacant counted =>
      rw [Block.ofBytes?_bytes] at given
      cases given
      refine ⟨Registry.request?_of_vacant vacant, ?_, _, rfl, if_pos rfl⟩
      change ∃ r, Registry.request? _ .legacy P n = some r ∧ _
      rw [Registry.request?_put_of_ne _ (by simp), Registry.request?_put_legacyRequest]
      exact ⟨_, rfl, rfl, rfl, rfl⟩
  | subscription b =>
    change Command.Does x σ P
      (.requestRandomWords requester { requestId := n, subscriptionId := b.subscriptionId, .. }) (τ, log) at h
    cases h with
    | requestRandomWords stored found registered allowed price paid next few vacant used counted =>
      refine ⟨Registry.request?_of_vacant vacant, ?_, _, rfl, if_pos ⟨rfl, rfl⟩⟩
      change ∃ r, Registry.request? _ .subscription P n = some r ∧ _
      rw [Registry.request?_put_of_ne _ (by simp), Registry.request?_put_of_ne _ (by simp),
        Registry.request?_put_wordsRequest]
      exact ⟨_, rfl, rfl, rfl, rfl⟩

theorem seen_of_ending {a : Except LedgerError Execution} {h : RequestHandle} (ends : c.ending n a = .ok h) :
    h.seen = true := by
  cases a with
  | error e => cases ends
  | ok x =>
    simp only [ending] at ends
    split at ends
    · cases ends
    · cases ends
      rfl

/-- A transaction of this call created the handle's request, with the id that the counter had. -/
structure Creates (c : Call) (before after : Ledger) (h : RequestHandle) : Prop where
  generation : h.generation = c.generation
  place : ∃ b, Site.address ⟨c.program, .request c.generation h.requestId⟩ = .ok (h.address, b)
  vacant : before.get? h.address = none
  created : ∃ data r, after.get? h.address = some data ∧ RequestAccount.decode c.generation data = .ok r ∧
    r.requestId = h.requestId ∧ r.requester = c.requester ∧ r.seed.bytes = c.seed ∧ r.status = .pending
  next : h.requestId.toNat = before.count c.generation c.program
  counted : after.count c.generation c.program = before.count c.generation c.program + 1

theorem executed {l l' : Ledger} {σ : Registry} {i : Instruction} {x : Execution} (inside : c.Over keys)
    (proper : c.program ≠ Instruction.signatureProgram) (backed : Backed keys l.accounts σ l.slot)
    (given : c.seed = seed.bytes) (made : (c.command treasury seed n).instruction c.program = .ok i)
    (accepted : l.submit [i] [c.requester] = .ok (l', x)) :
    (∃ τ, Backed keys l'.accounts τ l'.slot) ∧ Ledger.NoMore keys l l' ∧
      ∃ h, c.ending n (.ok x) = .ok h ∧ h.requestId = n ∧ c.Creates l l' h := by
  obtain ⟨y, τ, log, _, stepped, backed', logs⟩ := Ledger.submit_one backed inside.command made accepted
  have asked : (Operation.command c.program (c.command treasury seed n)).requested? c.generation c.program =
      some n := requested?_operation proper
  have counter := Operation.requested_eq stepped asked
  have counts := Operation.counts stepped c.generation c.program
  rcases Operation.step_cases stepped with ⟨_, nothing⟩ | ⟨P, d, same, _, _, does⟩
  · rw [nothing] at asked
    cases asked
  cases same
  obtain ⟨vacant, ⟨r, created, requester, sown, pending⟩, e, rfl, told⟩ := requests does
  have confirmed : c.client.confirmedId? c.requester x = some n := by
    rw [Client.confirmedId?, logs, Event.ofLog_text]
    change [e].findSome? (c.client.requestedBy? c.requester) = some n
    rw [List.findSome?_cons, told]
  obtain ⟨a, b, data, ha, stored, decoded⟩ := backed'.request_stored created
  have named := (backed'.sound _ _ _ r created).1.owned.requestId_eq
  have more := Ledger.noMore_of_one backed inside.command made accepted
  refine ⟨⟨τ, backed'⟩, more, { requestId := n, address := a, generation := c.generation, seen := true
                                signature := some x.signature }, ?_, rfl, ?_⟩
  · have address : (Place.request c.generation n).address c.program = .ok (a, b) := ha
    simp only [ending, confirmed, Option.getD_some, address]
  · refine ⟨rfl, ⟨b, ha⟩, backed.request_vacant inside.1 vacant ha, ?_, ?_, ?_⟩
    · refine ⟨data, r, stored, decoded, named, requester, ?_, pending⟩
      rw [sown, given]
    · rw [Ledger.count, backed.requestCount_eq inside.1, counter]
    · rw [asked] at counts
      rw [Ledger.count, Ledger.count, backed.requestCount_eq inside.1, backed'.requestCount_eq inside.1,
        counts]
      rfl

/-- The call's transaction crashes the ledger: the slots have run out, or the fee is no 64-bit number. -/
def Overflows (c : Call) (l : Ledger) : Prop :=
  l.slot.toNat + 1 = UInt64.size ∨ ∃ b config, c.client.mode = .subscription b ∧
    c.Allowed b l.accounts.records config ∧ config.feeFor? c.words = none

section

variable {l : Ledger} {σ : Registry} {i : Instruction} (inside : c.Over keys)
  (proper : c.program ≠ Instruction.signatureProgram) (backed : Backed keys l.accounts σ l.slot)
  (made : (c.command treasury seed n).instruction c.program = .ok i)

include inside proper backed made

theorem stale_calm (stale : n.toNat ≠ σ.requestCount c.generation c.program) (within : ¬ c.Overflows l)
    (x : Surroundings) : Coordinator.Calm (Coordinator.execute x i l.accounts) := by
  have same (t : Site) (ht : t.Over keys) : l.accounts.records t = σ t := backed.records_eq ht
  have overP := inside.1
  obtain ⟨⟨P, mode⟩, requester, bytes, numWords⟩ := c
  cases mode with
  | legacy callback =>
    refine Command.requestRandomness_calm backed.fits overP proper made x fun _ old stored same _ => ?_
    subst same
    exact absurd (Registry.requestCount_of_legacyConfig stored).symm stale
  | subscription b =>
    refine Command.requestRandomWords_calm backed.fits overP proper (inside.2 b rfl) made x
      (fun _ old stored registered words large => ?_) fun _ old _ _ stored _ _ _ _ _ same _ => ?_
    · have allowed : Allowed ⟨⟨P, .subscription b⟩, requester, bytes, numWords⟩ b σ old :=
        ⟨stored, Coordinator.one_le_iff.2 words.1, words.2, registered⟩
      exact within (.inr ⟨b, old, rfl, allowed.congr same inside rfl, large⟩)
    · subst same
      exact absurd (Registry.requestCount_of_coordinatorConfig stored).symm stale

/-- If the counter is not what it was when it was read, the transaction is refused. -/
theorem stale_refused (stale : n.toNat ≠ l.count c.generation c.program) (within : ¬ c.Overflows l) :
    ∃ e, l.answer [i] [c.requester] = .ok (l, .error e) := by
  rw [Ledger.count, backed.requestCount_eq inside.1] at stale
  have slots : l.slot.toNat + 1 < UInt64.size := Coordinator.succ_lt_size_iff.2 fun h => within (.inl h)
  have calm := stale_calm inside proper backed made stale within ⟨l.slot + 1, [i], [c.requester]⟩
  cases ran : Coordinator.execute ⟨l.slot + 1, [i], [c.requester]⟩ i l.accounts with
  | ok e =>
    obtain ⟨τ, stepped, _⟩ := Operation.stepped_of_executed backed.fits inside.command made ran
    exact absurd (Operation.requested_eq stepped (requested?_operation proper)) stale
  | error f =>
    cases f with
    | crashed f => exact absurd ran (calm f)
    | refused r =>
      simp only [Ledger.answer, Ledger.submit_of_error slots ran]
      exact ⟨_, rfl⟩

theorem overflow_crashes (overflows : c.Overflows l) : l.answer [i] [c.requester] = .error .arithmetic := by
  have same (t : Site) (ht : t.Over keys) : l.accounts.records t = σ t := backed.records_eq ht
  by_cases slots : l.slot.toNat + 1 < UInt64.size
  · rcases overflows with full | ⟨b, config, mode, allowed, large⟩
    · exact absurd full (Nat.ne_of_lt slots)
    have allowed := allowed.congr (fun t ht => (same t ht).symm) inside mode
    obtain ⟨sub, found⟩ := backed.counted.subscribed allowed.registered
    obtain ⟨registration, registered⟩ := Option.ne_none_iff_exists'.1 allowed.registered
    rw [command, mode] at made
    have ran := Command.requestRandomWords_crashes backed.fits inside.1 proper (inside.2 b mode) made
      ⟨l.slot + 1, [i], [c.requester]⟩ backed.legible (List.mem_singleton_self _) allowed.stored found
      registered ⟨allowed.positive, allowed.most⟩ large
    simp only [Ledger.answer, Ledger.submit_of_error slots ran]
  · exact Ledger.answer_without_slot slots

end

end Call

namespace Recorded

def binding : Binding := ⟨0, consumer, 200000, []⟩

/-- A request for two words. -/
def asker : Call where
  client := ⟨program, .subscription binding⟩
  requester := consumer
  seed := List.replicate 32 1
  numWords := some 2

/-- A coordinator with a fee, and a subscription with one consumer and a balance. -/
def offering (fee amount : UInt64) : Submission where
  operations := [.command program (.initializeSubscription program consumer fee 5),
    .command program (.createSubscription consumer 0), .command program (.addConsumer consumer 0 consumer),
    .command program (.fundSubscription consumer 0 amount)]
  signers := [program, consumer]

def offered (fee amount : UInt64) : Ledger :=
  let _ := crypto
  (Ledger.history [offering fee amount]).1

end Recorded

end Randomness
