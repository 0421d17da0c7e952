import Randomness.Ledger
import Randomness.Instruction.Legacy
import Randomness.Instruction.Subscription

/-!
The authority's part: transactions that prove and fulfill a request.
-/

namespace Randomness.Ledger

variable [Crypto]

/-- Executes an instruction of the authority's together with its proof. -/
def fulfillWith (l : Ledger) (authority : Secret) (id : UInt64) (randomness : Block 32)
    (i : Except BuildError Instruction) : Except Crash (Ledger × Except LedgerError Execution) :=
  match i with
  | .error e => .ok (l, .error (.custom e.message))
  | .ok i =>
    l.answer [Proof.instruction authority (Proof.message id randomness).bytes, i]
      [Crypto.publicKey authority]

def fulfillLegacy (l : Ledger) (program : Address) (authority : Secret) (id : UInt64)
    (randomness : Block 32) : Except Crash (Ledger × Except LedgerError Execution) :=
  l.fulfillWith authority id randomness
    (Legacy.fulfillRandomness program (Crypto.publicKey authority) id randomness)

/-- The instruction names the accounts that the stored request does. -/
def fulfillSubscription (l : Ledger) (program : Address) (authority : Secret) (id : UInt64)
    (randomness : Block 32) : Except Crash (Ledger × Except LedgerError Execution) :=
  let refuse (text : String) : Except Crash (Ledger × Except LedgerError Execution) :=
    .ok (l, .error (.custom text))
  match (Place.request .subscription id).address program with
  | .error e => refuse e.message
  | .ok (a, _) => match l.get? a with
    | none => refuse "request not found"
    | some data => match Kind.wordsRequest.decode data with
      | .error e => refuse e.message
      | .ok stored =>
        l.fulfillWith authority id randomness
          (Subscriptions.fulfillRandomWords program (Crypto.publicKey authority) stored randomness)

end Randomness.Ledger
