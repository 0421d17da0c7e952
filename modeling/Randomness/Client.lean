import Randomness.Client.Error
import Randomness.Account.Generations
import Randomness.Dialogue
import Randomness.Instruction.Legacy
import Randomness.Instruction.Subscription
import Randomness.Ledger
import Randomness.Words

/-!
The client of one coordinator: it submits requests, observes and finalizes them, and manages
subscriptions. Its operations are conversations with a ledger.
-/

namespace Randomness

inductive LedgerRequest where
  | account (address : Address)
  /-- A transaction and the addresses that sign it. -/
  | submit (instructions : List Instruction) (signers : List Address)
  deriving DecidableEq

abbrev LedgerRequest.Answer : LedgerRequest → Type
  | account _ => Except LedgerError (Option Bytes)
  | submit _ _ => Except LedgerError Execution

abbrev LedgerDialogue := Dialogue LedgerRequest LedgerRequest.Answer

abbrev ClientM := ExceptT ClientError LedgerDialogue

/-- What a client of the subscription generation requests against. -/
structure Binding where
  subscriptionId : UInt64
  consumerProgram : Address
  callbackComputeLimit : UInt32
  callbackAccounts : List AccountMeta
  deriving DecidableEq

inductive Mode where
  | legacy (callbackProgram : Option Address)
  | subscription (binding : Binding)
  deriving DecidableEq

def Mode.generation : Mode → Generation
  | legacy _ => .legacy
  | subscription _ => .subscription

/-- A request that is being tracked. -/
structure RequestHandle where
  requestId : UInt64
  address : Address
  generation : Generation
  /-- The request is known to have existed. -/
  seen : Bool
  signature : Option Signature
  deriving DecidableEq

/-- A request as it was found in its account. -/
structure RequestView where
  address : Address
  account : RequestAccount
  deriving DecidableEq

namespace RequestView

def isFulfilled (v : RequestView) : Bool :=
  match v.account.status with
  | .pending => false
  | .fulfilled | .consumed => true

/-- The requested words. A legacy request has one, its random block. -/
def words [Crypto] (v : RequestView) : List (Block 32) :=
  match v.account with
  | .legacy r => [r.randomness]
  | .subscription r => randomWords r.randomness r.numWords

end RequestView

/-- Why a request has no account. The ledger does not tell these apart. -/
inductive Absence where
  | closed
  | notYetCreated
  deriving DecidableEq

inductive Observation where
  | found (v : RequestView)
  | notFound (a : Absence)
  deriving DecidableEq

/-- A client of the coordinator at `program`. -/
structure Client where
  program : Address
  mode : Mode

variable [Crypto]

def RequestHandle.watch (program : Address) (g : Generation) (id : UInt64) :
    Except DerivationError RequestHandle := do
  let (address, _) ← (Place.request g id).address program
  return { requestId := id, address, generation := g, seen := false, signature := none }

namespace Client

def generation (c : Client) : Generation := c.mode.generation

def account (a : Address) : ClientM (Option Bytes) :=
  .mk <| .ask (.account a) fun (r : Except LedgerError (Option Bytes)) => .done (r.mapError .ledger)

def submitAll (instructions : List Instruction) (signers : List Address) : ClientM Execution :=
  .mk <| .ask (.submit instructions signers) fun (r : Except LedgerError Execution) =>
    .done (r.mapError .ledger)

def decoded : Except DecodeError α → ClientM α
  | .ok a => return a
  | .error e => throw (.decode e)

def built : Except BuildError α → ClientM α
  | .ok a => return a
  | .error e => throw (.ofBuild e)

/-- The address of one of the coordinator's accounts. -/
def addressOf (c : Client) (p : Place) : ClientM Address :=
  match p.address c.program with
  | .ok (a, _) => return a
  | .error e => throw (.derivation e)

def fetch (k : Kind) (what : String) (a : Address) : ClientM k.Record := do
  match ← account a with
  | some data => decoded (k.decode data)
  | none => throw (.notFound what a)

def fetchConfig (c : Client) : ClientM ConfigAccount := do
  let a ← c.addressOf (.config c.generation)
  match ← account a with
  | some data => decoded (ConfigAccount.decode c.generation data)
  | none => throw (.notFound "config" a)

def fetchLegacyConfig (c : Client) : ClientM LegacyConfig := do
  fetch .legacyConfig "config" (← c.addressOf (.config .legacy))

def fetchCoordinatorConfig (c : Client) : ClientM CoordinatorConfig := do
  fetch .coordinatorConfig "config" (← c.addressOf (.config .subscription))

def fetchSubscription (c : Client) (id : UInt64) : ClientM Subscription := do
  fetch .subscription "subscription" (← c.addressOf (.subscription id))

/-- The registration of a consumer, if it is registered. -/
def fetchRegistration (c : Client) (id : UInt64) (consumer : Address) :
    ClientM (Option ConsumerRegistration) := do
  match ← account (← c.addressOf (.consumer id consumer)) with
  | some data => return some (← decoded (Kind.consumerRegistration.decode data))
  | none => return none

/-- Checks what the coordinator would refuse, so that a refused request costs no transaction. -/
def preflight (c : Client) (b : Binding) (words : UInt32) : ClientM CoordinatorConfig := do
  let config ← c.fetchCoordinatorConfig
  if words = 0 ∨ config.maxNumWords < words then
    throw (.argument (.outOfRange "num_words" words.toNat 1 config.maxNumWords.toNat))
  if (← c.fetchRegistration b.subscriptionId b.consumerProgram).isNone then
    throw (.lifecycle (.consumerNotRegistered b.subscriptionId b.consumerProgram))
  let sub ← c.fetchSubscription b.subscriptionId
  let required := (config.feeFor? words).getD (-1)
  if sub.balance < required then
    throw (.lifecycle (.insufficientBalance b.subscriptionId required sub.balance))
  return config

/-- Whether an event says that this client's request was made, and under which id. -/
def requestedBy? (c : Client) (requester : Address) (e : Event) : Option UInt64 :=
  match c.mode, e with
  | .legacy _, .randomnessRequested e => if e.requester = requester then some e.requestId else none
  | .subscription b, .randomWordsRequested e =>
    if e.requester = requester ∧ e.consumerProgram = b.consumerProgram then some e.requestId else none
  | _, _ => none

/-- The id that an executed transaction gave to the requester's request. -/
def confirmedId? (c : Client) (requester : Address) (x : Execution) : Option UInt64 :=
  (Event.ofLog x.logs).findSome? (c.requestedBy? requester)

/-- The request's instruction, and the id that it is made for. -/
def prepare (c : Client) (requester : Address) (seed : Block 32) (numWords : Option UInt32) :
    ClientM (UInt64 × Instruction) :=
  match c.mode with
  | .legacy callback => do
    match numWords with
    | some n =>
      if n ≠ 1 then
        throw (.argument (.outOfRange "num_words" n.toNat 1 1))
    | none => pure ()
    let config ← c.fetchLegacyConfig
    let id := config.requestCounter
    let i ← built <| match callback with
      | some p => Legacy.requestRandomnessWithCallback c.program requester config.treasury p id seed.bytes
      | none => Legacy.requestRandomness c.program requester config.treasury id seed.bytes
    return (id, i)
  | .subscription b => do
    let words := numWords.getD 1
    let config ← c.preflight b words
    let id := config.requestCounter
    let i ← built <| Subscriptions.requestRandomWords c.program requester
      { requestId := id, subscriptionId := b.subscriptionId, consumerProgram := b.consumerProgram
        numWords := words, seed, callbackComputeLimit := b.callbackComputeLimit
        callbackAccounts := b.callbackAccounts }
    return (id, i)

/-- Submits a request. Its id is the configuration's counter just before; the events of the executed
transaction have the last word. -/
def submit (c : Client) (requester : Address) (seed : Bytes) (numWords : Option UInt32) :
    ClientM RequestHandle := do
  let seed ← match Instruction.seedOf seed with
    | .ok s => pure s
    | .error e => throw (.argument e)
  let (advisory, i) ← c.prepare requester seed numWords
  let x ← submitAll [i] [requester]
  let id := (c.confirmedId? requester x).getD advisory
  let address ← c.addressOf (.request c.generation id)
  return { requestId := id, address, generation := c.generation, seen := true, signature := some x.signature }

/-- Reads a request once. If there is no account, the handle decides what that means. -/
def observe (h : RequestHandle) : ClientM Observation := do
  match ← account h.address with
  | some data => return .found ⟨h.address, ← decoded (RequestAccount.decode h.generation data)⟩
  | none => return .notFound (if h.seen then .closed else .notYetCreated)

def reread (c : Client) (v : RequestView) : ClientM RequestAccount := do
  match ← account v.address with
  | some data => decoded (RequestAccount.decode c.generation data)
  | none => throw (.notFound "randomness request" v.address)

/-- Consumes and closes a fulfilled legacy request and returns its randomness. The request is read
again before each of the two steps; a consumed one is only closed. -/
def finalize (c : Client) (requester : Address) (v : RequestView) : ClientM (Block 32) := do
  if c.generation ≠ .legacy then
    throw (.lifecycle (.unsupportedGeneration "finalize" .legacy))
  let id := v.account.requestId
  let wrongState (expected actual : RequestStatus) : ClientError :=
    .lifecycle (.wrongState id expected actual)
  if v.account.status = .pending then
    throw (wrongState .fulfilled .pending)
  let current ← c.reread v
  match current.status with
  | .fulfilled =>
    let _ ← submitAll [← built (Legacy.consumeRandomness c.program requester id)] [requester]
  | .consumed => pure ()
  | .pending => throw (wrongState .fulfilled .pending)
  let consumed ← c.reread v
  if consumed.status ≠ .consumed then
    throw (wrongState .consumed consumed.status)
  let _ ← submitAll [← built (Legacy.closeRequest c.program requester id)] [requester]
  return consumed.randomness

def requireSubscriptions (c : Client) (operation : String) : ClientM Unit :=
  if c.generation = .subscription then return ()
  else throw (.lifecycle (.unsupportedGeneration operation .subscription))

/-- Creates a subscription and returns its id. -/
def createSubscription (c : Client) (owner : Address) : ClientM UInt64 := do
  c.requireSubscriptions "create_subscription"
  let id := (← c.fetchCoordinatorConfig).subscriptionCounter
  let _ ← submitAll [← built (Subscriptions.createSubscription c.program owner id)] [owner]
  return id

def fundSubscription (c : Client) (funder : Address) (id amount : UInt64) : ClientM Execution := do
  c.requireSubscriptions "fund_subscription"
  submitAll [← built (Subscriptions.fundSubscription c.program funder id amount)] [funder]

def addConsumer (c : Client) (owner : Address) (id : UInt64) (consumer : Address) : ClientM Execution := do
  c.requireSubscriptions "add_consumer"
  submitAll [← built (Subscriptions.addConsumer c.program owner id consumer)] [owner]

def removeConsumer (c : Client) (owner : Address) (id : UInt64) (consumer : Address) :
    ClientM Execution := do
  c.requireSubscriptions "remove_consumer"
  submitAll [← built (Subscriptions.removeConsumer c.program owner id consumer)] [owner]

/-- Cancels a subscription; without a transaction while it has consumers. -/
def cancelSubscription (c : Client) (owner : Address) (id : UInt64) : ClientM Execution := do
  c.requireSubscriptions "cancel_subscription"
  let sub ← c.fetchSubscription id
  if sub.consumerCount ≠ 0 then
    throw (.lifecycle (.subscriptionHasConsumers id sub.consumerCount))
  submitAll [← built (Subscriptions.cancelSubscription c.program owner id)] [owner]

end Client

end Randomness
