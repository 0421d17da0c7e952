import Randomness.Proofs.Conversation
import Randomness.Proofs.Operation

/-!
A call of `submit`, question by question: it reads the counter first, looks at other accounts, and sends at
most one transaction, which requests the id that it has read.
-/

namespace Randomness

/-- A call of `submit`. -/
structure Call where
  client : Client
  requester : Address
  seed : Bytes
  numWords : Option UInt32

namespace Call

abbrev program (c : Call) : Address := c.client.program

def generation (c : Call) : Generation := c.client.generation

def words (c : Call) : UInt32 := c.numWords.getD 1

/-- The coordinator and the consumer are among `keys`. -/
def Over (keys : Set Address) (c : Call) : Prop :=
  c.program ∈ keys ∧ ∀ b, c.client.mode = .subscription b → b.consumerProgram ∈ keys

/-- What the coordinator is told if the counter has been read as `n`. -/
def command (c : Call) (treasury : Address) (seed : Block 32) (n : UInt64) : Command :=
  match c.client.mode with
  | .legacy callback => .requestRandomness c.requester treasury callback n seed.bytes
  | .subscription b => .requestRandomWords c.requester
    { requestId := n, subscriptionId := b.subscriptionId, consumerProgram := b.consumerProgram
      numWords := c.words, seed, callbackComputeLimit := b.callbackComputeLimit
      callbackAccounts := b.callbackAccounts }

variable [Crypto]

def start (c : Call) : LedgerDialogue (Except ClientError RequestHandle) :=
  (c.client.submit c.requester c.seed c.numWords).run

/-- How the call ends when its transaction is answered. -/
def ending (c : Call) (n : UInt64) : Except LedgerError Execution → Except ClientError RequestHandle
  | .error e => .error (.ledger e)
  | .ok x =>
    let id := (c.client.confirmedId? c.requester x).getD n
    match (Place.request c.generation id).address c.program with
    | .error e => .error (.derivation e)
    | .ok (address, _) => .ok { requestId := id, address, generation := c.generation, seen := true
                                signature := some x.signature }

/-- Sends the transaction, if it could be made, and returns the handle. -/
def sending (c : Call) (n : UInt64) (made : Except BuildError Instruction) : ClientM RequestHandle := do
  let i ← Client.built made
  let x ← Client.submitAll [i] [c.requester]
  let id := (c.client.confirmedId? c.requester x).getD n
  let address ← c.client.addressOf (.request c.client.generation id)
  return { requestId := id, address, generation := c.client.generation, seen := true
           signature := some x.signature }

/-- What is left of a call that has read the counter as `n`, and has at most so many questions. -/
inductive Asks (c : Call) (n : UInt64) : Nat → LedgerDialogue (Except ClientError RequestHandle) → Prop
  | failed {k : Nat} (e : ClientError) : Asks c n k (.done (.error e))
  | look {k : Nat} {a : Address} (other : ∀ b, Site.address ⟨c.program, .config c.generation⟩ ≠ .ok (a, b))
      {next : Except LedgerError (Option Bytes) → LedgerDialogue (Except ClientError RequestHandle)}
      (goes : ∀ r, Asks c n k (next r)) : Asks c n (k + 1) (.ask (.account a) next)
  | send {k : Nat} {treasury : Address} {seed : Block 32} (given : c.seed = seed.bytes) {i : Instruction}
      (made : (c.command treasury seed n).instruction c.program = .ok i)
      {next : Except LedgerError Execution → LedgerDialogue (Except ClientError RequestHandle)}
      (ends : ∀ r, next r = .done (c.ending n r)) :
      Asks c n (k + 1) (.ask (.submit [i] [c.requester]) next)

/-- An account that is read as a configuration with the counter `n`. -/
def Reads (c : Call) (n : UInt64) (r : Except LedgerError (Option Bytes)) : Prop :=
  ∃ data config, r = .ok (some data) ∧ ConfigAccount.decode c.generation data = .ok config ∧
    config.requestCounter = n

/-- What a call does first: it fails, or it reads the counter. -/
inductive Opens (c : Call) : LedgerDialogue (Except ClientError RequestHandle) → Prop
  | failed (e : ClientError) : Opens c (.done (.error e))
  | read {a : Address} {b : UInt8} (ha : Site.address ⟨c.program, .config c.generation⟩ = .ok (a, b))
      {next : Except LedgerError (Option Bytes) → LedgerDialogue (Except ClientError RequestHandle)}
      (goes : ∀ r, (∃ e, next r = .done (.error e)) ∨ ∃ n, c.Reads n r ∧ Asks c n 3 (next r)) :
      Opens c (.ask (.account a) next)

namespace Asks

variable {c : Call} {n : UInt64} {k : Nat}

theorem addressOf {p : Place} {f : Address → ClientM RequestHandle}
    (goes : ∀ a b, Site.address ⟨c.program, p⟩ = .ok (a, b) → c.Asks n k (f a).run) :
    c.Asks n k (c.client.addressOf p >>= f).run := by
  rw [Client.run_addressOf]
  cases ha : p.address c.client.program with
  | error e => exact .failed _
  | ok found => exact goes found.1 found.2 ha

/-- Other accounts may hold anything. -/
theorem account {a : Address} (other : ∀ b, Site.address ⟨c.program, .config c.generation⟩ ≠ .ok (a, b))
    {f : Option Bytes → ClientM RequestHandle} (goes : ∀ data, c.Asks n k (f data).run) :
    c.Asks n (k + 1) (Client.account a >>= f).run := by
  rw [Client.run_account]
  refine .look other fun r => ?_
  cases r with
  | error e => exact .failed _
  | ok data => exact goes data

theorem decoded {x : Except DecodeError α} {f : α → ClientM RequestHandle}
    (goes : ∀ a, c.Asks n k (f a).run) : c.Asks n k (Client.decoded x >>= f).run := by
  rw [Client.run_decoded]
  cases x with
  | error e => exact .failed _
  | ok a => exact goes a

theorem fetch {r : Kind} {what : String} {a : Address}
    (other : ∀ b, Site.address ⟨c.program, .config c.generation⟩ ≠ .ok (a, b))
    {f : r.Record → ClientM RequestHandle} (goes : ∀ a, c.Asks n k (f a).run) :
    c.Asks n (k + 1) (Client.fetch r what a >>= f).run := by
  rw [Client.fetch, bind_assoc]
  refine account other fun data => ?_
  cases data with
  | none => exact .failed _
  | some data => exact decoded goes

theorem sending {treasury : Address} {seed : Block 32} (given : c.seed = seed.bytes) :
    c.Asks n (k + 1) (c.sending n ((c.command treasury seed n).instruction c.program)).run := by
  rw [Call.sending, Client.run_built]
  cases made : (c.command treasury seed n).instruction c.program with
  | error e => exact .failed _
  | ok i =>
    change c.Asks n (k + 1) (Client.submitAll [i] [c.requester] >>= _).run
    rw [Client.run_submitAll]
    refine .send given made fun r => ?_
    cases r with
    | error e => rfl
    | ok x =>
      simp only [Client.run_addressOf, ending, program, generation]
      cases (Place.request c.client.generation ((c.client.confirmedId? c.requester x).getD n)).address
        c.client.program <;> rfl

end Asks

variable {keys : Set Address} {c : Call}

/-- A call reads its configuration with a record of its generation, or fails. -/
theorem Opens.fetch {r : Kind} {what : String} {a : Address} {b : UInt8}
    {f : r.Record → ClientM RequestHandle} {w : r.Record → ConfigAccount}
    (ha : Site.address ⟨c.program, .config c.generation⟩ = .ok (a, b))
    (reads : ∀ data, ConfigAccount.decode c.generation data = (r.decode data).map w)
    (goes : ∀ config, c.Asks (w config).requestCounter 3 (f config).run) :
    c.Opens (Client.fetch r what a >>= f).run := by
  rw [Client.run_fetch]
  refine .read ha fun answer => ?_
  rcases answer with e | _ | data
  · exact .inl ⟨_, rfl⟩
  · exact .inl ⟨_, rfl⟩
  · cases read : r.decode data with
    | error e =>
      refine .inl ⟨.decode e, ?_⟩
      simp only [read]
    | ok config =>
      refine .inr ⟨(w config).requestCounter, ⟨data, w config, rfl, ?_, rfl⟩, ?_⟩
      · rw [reads, read]
        rfl
      · simp only [read]
        exact goes config

/-- No other place shares the configuration's address. -/
theorem Over.apart (inside : c.Over keys) (distinct : DistinctAddresses keys) {p : Place} {a : Address}
    {b : UInt8} (ha : Site.address ⟨c.program, p⟩ = .ok (a, b)) (other : p ≠ .config c.generation)
    (hp : Site.Over keys ⟨c.program, p⟩) (e : UInt8) :
    Site.address ⟨c.program, .config c.generation⟩ ≠ .ok (a, e) := by
  intro same
  have config : Site.Over keys ⟨c.program, .config c.generation⟩ := by simpa using inside.1
  have sites := distinct _ _ hp config _ _ _ ha same
  exact other (congrArg Site.place sites)

theorem opens_legacy {callback : Option Address} (mode : c.client.mode = .legacy callback) {seed : Block 32}
    (given : c.seed = seed.bytes) : c.Opens (do
      let config ← c.client.fetchLegacyConfig
      c.sending config.requestCounter
        ((c.command config.treasury seed config.requestCounter).instruction c.program)).run := by
  have legacy : c.generation = .legacy := by rw [generation, Client.generation, mode]; rfl
  rw [Client.fetchLegacyConfig, bind_assoc, Client.run_addressOf]
  cases ha : (Place.config .legacy).address c.client.program with
  | error e => exact .failed _
  | ok found =>
    rw [← legacy] at ha
    refine Opens.fetch (w := .legacy) ha (fun data => ?_) fun config => Asks.sending given
    rw [legacy]
    rfl

/-- The configuration is read before the registration and the subscription are looked at. -/
theorem opens_subscription (distinct : DistinctAddresses keys) (inside : c.Over keys) {b : Binding}
    (mode : c.client.mode = .subscription b) {seed : Block 32} (given : c.seed = seed.bytes) : c.Opens (do
      let config ← c.client.preflight b c.words
      c.sending config.requestCounter
        ((c.command Address.zero seed config.requestCounter).instruction c.program)).run := by
  have subscription : c.generation = .subscription := by rw [generation, Client.generation, mode]; rfl
  rw [Client.preflight, bind_assoc, Client.fetchCoordinatorConfig, bind_assoc, Client.run_addressOf]
  cases ha : (Place.config .subscription).address c.client.program with
  | error e => exact .failed _
  | ok found =>
    rw [← subscription] at ha
    refine Opens.fetch (w := .subscription) ha (fun data => ?_) fun config => ?_
    · rw [subscription]
      rfl
    have sub (a : Address) (e : UInt8)
        (h : Site.address ⟨c.program, .subscription b.subscriptionId⟩ = .ok (a, e)) :=
      inside.apart distinct h (by simp) (by simpa using inside.1)
    have registration (a : Address) (e : UInt8)
        (h : Site.address ⟨c.program, .consumer b.subscriptionId b.consumerProgram⟩ = .ok (a, e)) :=
      inside.apart distinct h (by simp) (by simpa using ⟨inside.1, inside.2 b mode⟩)
    by_cases bad : c.words = 0 ∨ config.maxNumWords < c.words
    · simp only [if_pos bad]
      exact .failed _
    simp only [if_neg bad, Client.fetchRegistration, Client.fetchSubscription, bind_assoc]
    refine Asks.addressOf fun a e ha => Asks.account (registration a e ha) fun data => ?_
    cases data with
    | none => exact .failed _
    | some data =>
      simp only [bind_assoc]
      refine Asks.decoded fun registered => ?_
      simp only [pure_bind, Option.isNone_some, Bool.false_eq_true, if_false, bind_assoc]
      refine Asks.addressOf fun a e ha => Asks.fetch (sub a e ha) fun found => ?_
      by_cases poor : found.balance < (CoordinatorConfig.feeFor? config c.words).getD (-1)
      · simp only [if_pos poor]
        exact .failed _
      · simp only [if_neg poor, pure_bind]
        exact Asks.sending given

theorem start_legacy {callback : Option Address} (mode : c.client.mode = .legacy callback) {seed : Block 32}
    (given : c.seed = seed.bytes) : c.start = if c.words = 1 then (do
        let config ← c.client.fetchLegacyConfig
        c.sending config.requestCounter
          ((c.command config.treasury seed config.requestCounter).instruction c.program)).run
      else .done (.error (.argument (.outOfRange "num_words" c.words.toNat 1 1))) := by
  have known : Instruction.seedOf c.seed = .ok seed := by
    rw [Instruction.seedOf, given, Block.ofBytes?_bytes]
  rw [start, Client.submit, known]
  simp only [pure_bind, Client.prepare, mode, sending, command, Command.instruction, words]
  cases hn : c.numWords with
  | none =>
    simp only [Option.getD_none, if_true, pure_bind, bind_assoc]
    cases callback <;> rfl
  | some n =>
    by_cases one : n = 1
    · simp only [one, ne_eq, not_true_eq_false, if_false, Option.getD_some, if_true, pure_bind, bind_assoc]
      cases callback <;> rfl
    · simp only [one, ne_eq, not_false_eq_true, if_true, Option.getD_some, if_false]
      rfl

theorem start_subscription {b : Binding} (mode : c.client.mode = .subscription b) {seed : Block 32}
    (given : c.seed = seed.bytes) : c.start = (do
      let config ← c.client.preflight b c.words
      c.sending config.requestCounter
        ((c.command Address.zero seed config.requestCounter).instruction c.program)).run := by
  have known : Instruction.seedOf c.seed = .ok seed := by
    rw [Instruction.seedOf, given, Block.ofBytes?_bytes]
  rw [start, Client.submit, known]
  simp only [pure_bind, Client.prepare, mode, bind_assoc, sending, command, Command.instruction]
  rfl

theorem opens (distinct : DistinctAddresses keys) (inside : c.Over keys) : c.Opens c.start := by
  cases hs : Instruction.seedOf c.seed with
  | error e =>
    rw [start, Client.submit, hs]
    exact .failed _
  | ok seed =>
    have given : c.seed = seed.bytes :=
      Instruction.seedOf_eq_ok (f := BuildError.argument).1 (by rw [hs]; rfl)
    cases mode : c.client.mode with
    | legacy callback =>
      rw [start_legacy mode given]
      split
      · exact opens_legacy mode given
      · exact .failed _
    | subscription b =>
      rw [start_subscription mode given]
      exact opens_subscription distinct inside mode given

end Call

end Randomness
