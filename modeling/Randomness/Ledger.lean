import Randomness.Coordinator
import Randomness.Ledger.Error

/-!
A ledger in memory. It executes transactions of the coordinator's instructions, each of them as a
whole or not at all.
-/

namespace Randomness

/-- Effects of an executed transaction. -/
structure Execution where
  signature : Signature
  slot : UInt64
  logs : List String
  deriving DecidableEq

structure Ledger where
  accounts : Accounts
  slot : UInt64
  /-- How many transactions were executed. -/
  transactions : UInt64

namespace Ledger

def fresh : Ledger := ⟨Accounts.empty, 100, 0⟩

def get? (l : Ledger) (a : Address) : Option Bytes := l.accounts.get? a

/-- Why a transaction is not executed: the fault of one of its instructions. -/
structure Failure where
  position : Nat
  fault : Fault
  deriving DecidableEq

variable [Crypto]

/-- Executes instructions from position `n` of their transaction on. -/
def executeFrom (x : Surroundings) (n : Nat) (s : Accounts) : List Instruction → Except Failure Effect
  | [] => .ok ⟨s, []⟩
  | i :: is => do
    let first ← (Coordinator.execute x i s).mapError (⟨n, ·⟩)
    let rest ← executeFrom x (n + 1) first.accounts is
    return ⟨rest.accounts, .invoke i.program 1 :: first.log ++ .success i.program :: rest.log⟩

/-- The number of the transaction, in the first of the signature's bytes. -/
def signatureOf (n : UInt64) : Signature := (Codec.u64.write n).append (Block.zero 56)

def submit (l : Ledger) (instructions : List Instruction) (signers : List Address) :
    Except Failure (Ledger × Execution) := do
  let slot ← (Coordinator.next64 l.slot).mapError (⟨0, ·⟩)
  let effect ← executeFrom ⟨slot, instructions, signers⟩ 0 l.accounts instructions
  let transactions ← (Coordinator.next64 l.transactions).mapError (⟨instructions.length, ·⟩)
  return (⟨effect.accounts, slot, transactions⟩,
    ⟨signatureOf transactions, slot, effect.log.map LogEntry.text⟩)

/-- The ledger's answer to a transaction: its new state, what the client is told, or a crash. -/
def answer (l : Ledger) (instructions : List Instruction) (signers : List Address) :
    Except Crash (Ledger × Except LedgerError Execution) :=
  match l.submit instructions signers with
  | .ok (l, e) => .ok (l, .ok e)
  | .error ⟨n, .refused r⟩ =>
    .ok (l, .error (.custom ("instruction " ++ toString n ++ " failed: " ++ r.message)))
  | .error ⟨_, .crashed c⟩ => .error c

end Ledger

end Randomness
