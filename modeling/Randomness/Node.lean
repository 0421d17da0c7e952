import Randomness.Account.Generations
import Randomness.Dialogue
import Randomness.Ledger

/-!
A ledger that a node looks after. The node is asked for accounts and is sent transactions; a
transaction names a recent blockhash, and one whose blockhash the node does not know is sent again
with a newer one.
-/

namespace Randomness

/-- What a node compares before it lists an account. -/
inductive DataFilter where
  | size (n : Nat)
  | bytesAt (offset : Nat) (expected : Bytes)
  deriving DecidableEq

def DataFilter.accepts (data : Bytes) : DataFilter → Bool
  | size n => data.length = n
  | bytesAt offset expected => (data.drop offset).take expected.length = expected

structure Transaction where
  instructions : List Instruction
  /-- The first one pays. -/
  signers : List Address
  blockhash : Block 32
  deriving DecidableEq

inductive NodeQuestion where
  | account (a : Address)
  /-- The owner's accounts that pass all filters. -/
  | accounts (owner : Address) (filters : List DataFilter)
  /-- A recent blockhash. -/
  | blockhash
  /-- A transaction, until it is executed. -/
  | send (t : Transaction)
  /-- The slot and the log of an executed transaction. -/
  | effects (s : Signature)
  deriving DecidableEq

/-- A listed account has no data where they are in a form that is not read. -/
abbrev NodeQuestion.Answer : NodeQuestion → Type
  | account _ => Except NodeError (Option Bytes)
  | accounts _ _ => Except NodeError (List (Address × Option Bytes))
  | blockhash => Except NodeError (Block 32)
  | send _ => Except NodeError Signature
  | effects _ => Except NodeError (UInt64 × List String)

/-- These conversations count time in nanoseconds. -/
abbrev NodeM := ExceptT LedgerError (Dialogue NodeQuestion NodeQuestion.Answer)

/-- A length of time in nanoseconds. Its whole seconds fit into 64 bits. -/
structure Delay where
  nanos : Nat
  nanos_lt : nanos < UInt64.size * 1000000000
  deriving DecidableEq

namespace Delay

/-- The longest length of time that is not longer than so many nanoseconds. -/
def upTo (nanos : Nat) : Delay where
  nanos := min nanos (UInt64.size * 1000000000 - 1)
  nanos_lt := by
    have some : 0 < UInt64.size * 1000000000 := by decide
    omega

def millis (ms : Nat) : Delay := upTo (ms * 1000000)

/-- A number stands for so many milliseconds. -/
instance : Coe Nat Delay := ⟨millis⟩

/-- Twice as long, as far as that can be told. -/
def doubled (d : Delay) : Delay := upTo (d.nanos * 2)

def shorter (d e : Delay) : Delay := if d.nanos ≤ e.nanos then d else e

theorem nanos_doubled (d : Delay) : d.doubled.nanos = min (d.nanos * 2) (UInt64.size * 1000000000 - 1) := rfl

theorem nanos_shorter (d e : Delay) : (d.shorter e).nanos = min d.nanos e.nanos := by
  unfold shorter
  split <;> omega

end Delay

/-- How often a transaction with an unknown blockhash is sent again, and how long is waited before.
The wait doubles up to the maximum; the first one is taken as it is. -/
structure RetryPolicy where
  maxRetries : Nat
  initialDelay : Delay
  maxDelay : Delay
  deriving DecidableEq

namespace RetryPolicy

def standard : RetryPolicy := ⟨5, .millis 500, .millis 60000⟩

def nextDelay (p : RetryPolicy) (delay : Delay) : Delay := delay.doubled.shorter p.maxDelay

end RetryPolicy

/-- The error speaks of a blockhash that is not found, by the name of that cause. -/
def NodeError.isStale (e : NodeError) : Bool :=
  Text.occurs "BlockhashNotFound".toList e.message.toList

namespace Node

def account (a : Address) : NodeM (Option Bytes) :=
  .mk <| .ask (.account a) fun (r : Except NodeError (Option Bytes)) => .done (r.mapError .node)

def accounts (owner : Address) (filters : List DataFilter) : NodeM (List (Address × Option Bytes)) :=
  .mk <| .ask (.accounts owner filters) fun (r : Except NodeError (List (Address × Option Bytes))) =>
    .done (r.mapError .node)

def blockhash : NodeM (Block 32) :=
  .mk <| .ask .blockhash fun (r : Except NodeError (Block 32)) => .done (r.mapError .node)

/-- Sends a transaction and hands back the node's answer. -/
def send (t : Transaction) : NodeM (Except NodeError Signature) :=
  .mk <| .ask (.send t) fun (r : Except NodeError Signature) => .done (.ok r)

def effects (s : Signature) : NodeM (UInt64 × List String) :=
  .mk <| .ask (.effects s) fun (r : Except NodeError (UInt64 × List String)) => .done (r.mapError .node)

/-- Filters for requests of a generation that nobody has fulfilled yet. -/
def pendingFilters (g : Generation) : List DataFilter :=
  [.size g.requestKind.size, .bytesAt 0 Discriminator.Account.randomnessRequest.bytes,
    .bytesAt g.statusOffset [RequestStatus.pending.code]]

/-- The request in a listed account. -/
def request? (g : Generation) : Address × Option Bytes → Option (Address × RequestAccount)
  | (a, some data) => match RequestAccount.decode g data with
    | .ok r => some (a, r)
    | .error _ => none
  | (_, none) => none

/-- Requests of a program that nobody has fulfilled yet. Accounts that are no requests are passed
over. -/
def pendingRequests (program : Address) (g : Generation) : NodeM (List (Address × RequestAccount)) := do
  return (← accounts program (pendingFilters g)).filterMap (request? g)

/-- Sends the transaction, each time with a newly asked blockhash, until the node executes it, fails
for another reason than the blockhash, or no attempts are left. `attempt` counts the earlier ones.
The signers are taken to be those that the instructions name: with others no transaction can be signed. -/
def sendFrom (p : RetryPolicy) (transaction : Block 32 → Transaction) (attempt : Nat) (delay : Delay) :
    Nat → NodeM Signature
  | 0 => throw (.custom ("max retries (" ++ toString p.maxRetries ++ ") exceeded"))
  | left + 1 => do
    let hash ← blockhash
    match ← send (transaction hash) with
    | .ok s => return s
    | .error e =>
      if e.isStale ∧ attempt < p.maxRetries then
        (Dialogue.sleep delay.nanos : Dialogue NodeQuestion NodeQuestion.Answer Unit)
        sendFrom p transaction (attempt + 1) (p.nextDelay delay) left
      else throw (.node e)

/-- Sends the transaction as often as the policy allows. -/
def sendWithRetries (p : RetryPolicy) (instructions : List Instruction) (signers : List Address) :
    NodeM Signature := do
  if signers.isEmpty then throw (.custom "no fee payer supplied")
  sendFrom p (⟨instructions, signers, ·⟩) 0 p.initialDelay (p.maxRetries + 1)

/-- Executes instructions in one transaction. -/
def submit (p : RetryPolicy) (instructions : List Instruction) (signers : List Address) :
    NodeM Execution := do
  let signature ← sendWithRetries p instructions signers
  let (slot, logs) ← effects signature
  return ⟨signature, slot, logs⟩

end Node

end Randomness
