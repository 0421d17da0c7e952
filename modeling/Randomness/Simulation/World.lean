import Randomness.Client
import Randomness.Ledger.Authority

/-!
A ledger that can be tampered with, that fails on demand, and that remembers what it was asked.
-/

namespace Randomness.Simulation

/-- A change of one account behind the coordinator's back. -/
inductive Change where
  | remove
  | set (data : Bytes)
  | truncate (length : Nat)
  | overwrite (offset : Nat) (bytes : Bytes)
  deriving DecidableEq

structure Mutation where
  address : Address
  change : Change
  deriving DecidableEq

def Change.apply (c : Change) (data : Bytes) : Option Bytes :=
  match c with
  | remove => none
  | set d => some d
  | truncate n => some (data.take n)
  | overwrite o bs => some (data.take o ++ bs ++ data.drop (o + bs.length))

def Mutation.apply (m : Mutation) (l : Ledger) : Ledger :=
  match m.change.apply ((l.get? m.address).getD []) with
  | none => { l with accounts := l.accounts.erase m.address }
  | some data => { l with accounts := l.accounts.insert m.address data }

def mutateAll (ms : List Mutation) (l : Ledger) : Ledger := ms.foldl (fun l m => m.apply l) l

/-- What the client asked. -/
inductive Call where
  /-- An account, with the length of its data where it was found. -/
  | account (a : Address) (size : Option Nat)
  | failedAccount (a : Address)
  | submit (instructions : List Instruction) (signers : List Address)
  deriving DecidableEq

/-- What happens to a call of the client. -/
structure Injection where
  /-- A transaction, or the reading of an account. -/
  isSubmit : Bool
  /-- The call's number among those of its sort. -/
  index : Nat
  before : List Mutation
  /-- The call fails with this error and does nothing. -/
  fail : Option LedgerError
  after : List Mutation
  /-- The call is carried out, but the client is told this error. -/
  failAfter : Option LedgerError
  /-- The log that the client is told instead. -/
  logs : Option (List String)

structure World where
  ledger : Ledger
  injections : List Injection
  accountCalls : Nat
  submitCalls : Nat
  /-- Newest first. -/
  calls : List Call

namespace World

/-- Before the first call. -/
def start (l : Ledger) (injections : List Injection) : World := ⟨l, injections, 0, 0, []⟩

def injection? (w : World) (isSubmit : Bool) : Option Injection :=
  w.injections.find? fun i =>
    i.isSubmit == isSubmit && i.index == (if isSubmit then w.submitCalls else w.accountCalls)

def answerAccount (w : World) (a : Address) : World × Except LedgerError (Option Bytes) :=
  let i := w.injection? false
  let w := { w with
    accountCalls := w.accountCalls + 1
    ledger := mutateAll (i.elim [] Injection.before) w.ledger }
  match i.bind Injection.fail with
  | some e => ({ w with calls := .failedAccount a :: w.calls }, .error e)
  | none =>
    let data := w.ledger.get? a
    ({ w with
        calls := .account a (data.map List.length) :: w.calls
        ledger := mutateAll (i.elim [] Injection.after) w.ledger }, .ok data)

def answerSubmit [Crypto] (w : World) (instructions : List Instruction) (signers : List Address) :
    Except Crash (World × Except LedgerError Execution) := do
  let i := w.injection? true
  let w := { w with
    submitCalls := w.submitCalls + 1
    calls := .submit instructions signers :: w.calls
    ledger := mutateAll (i.elim [] Injection.before) w.ledger }
  match i.bind Injection.fail with
  | some e => return (w, .error e)
  | none =>
    let (l, r) ← w.ledger.answer instructions signers
    match r with
    | .error e => return ({ w with ledger := l }, .error e)
    | .ok x =>
      let w := { w with ledger := mutateAll (i.elim [] Injection.after) l }
      match i.bind Injection.failAfter with
      | some e => return (w, .error e)
      | none => return (w, .ok { x with logs := (i.bind Injection.logs).getD x.logs })

def answer [Crypto] (w : World) : (q : LedgerRequest) → Except Crash (World × q.Answer)
  | .account a => .ok (w.answerAccount a)
  | .submit instructions signers => w.answerSubmit instructions signers

end World

end Randomness.Simulation
