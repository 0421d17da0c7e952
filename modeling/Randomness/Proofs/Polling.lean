import Randomness.Client.Wait
import Randomness.Proofs.Conversation

/-!
A call of `wait`, poll by poll: it asks for the request's account again and again, until that decides or time is
up.
-/

namespace Randomness

namespace Wait

variable {Q : Type} {A : Q → Type} {α σ : Type} {poll : σ → ExceptT ClientError (Dialogue Q A) (α ⊕ σ)}
  {id : UInt64} {timeout interval elapsed attempts : Nat} {q : Q} {s : σ}
  {react : A q → Except ClientError (α ⊕ σ)}

/-- What a loop does with one poll. -/
theorem run_loop (asks : (poll s).run = .ask q fun a => .done (react a)) :
    (loop poll id timeout interval s elapsed attempts).run = .ask q fun a => match react a with
      | .error e => .done (.error e)
      | .ok (.inl a) => .done (.ok a)
      | .ok (.inr s') => if timeout ≤ elapsed then .done (.error (.timeout id elapsed (attempts + 1)))
        else .pause (step timeout interval elapsed)
          (loop poll id timeout interval s' (elapsed + step timeout interval elapsed) (attempts + 1)).run := by
  rw [loop]
  change (poll s).run.bind _ = _
  rw [asks]
  change (Dialogue.ask q fun a => (Dialogue.done (react a)).bind _) = _
  congr 1
  funext a
  generalize react a = answer
  rcases answer with e | a | s'
  · rfl
  · rfl
  · rw [Dialogue.bind, ExceptT.bindCont]
    by_cases up : timeout ≤ elapsed
    · simp only [up, if_true]
      rfl
    · simp only [up, if_false]
      rfl

end Wait

namespace Client

/-- What a poll makes of a read. -/
def react (h : RequestHandle) :
    Except LedgerError (Option Bytes) → Except ClientError (WaitOutcome ⊕ RequestHandle)
  | .error e => .error (.ledger e)
  | .ok none =>
    if h.seen then match h.generation with
      | .subscription => .ok (.inl (.closedAfterCallback h.requestId))
      | .legacy => .error (.lifecycle (.requestClosed h.requestId))
    else .ok (.inr h)
  | .ok (some data) => match RequestAccount.decode h.generation data with
    | .error e => .error (.decode e)
    | .ok r =>
      if r.status = .pending then .ok (.inr { h with seen := true })
      else .ok (.inl (.fulfilled ⟨h.address, r⟩))

theorem run_poll (h : RequestHandle) :
    (poll h).run = .ask (.account h.address) fun r => .done (react h r) := by
  rw [poll, observe]
  simp only [bind_assoc, run_account]
  congr 1
  funext r
  rcases r with e | _ | data
  · rfl
  · cases seen : h.seen
    · simp only [react, seen, pure_bind, Bool.false_eq_true, if_false]
      rfl
    · simp only [react, seen, pure_bind, if_true]
      cases h.generation <;> rfl
  · simp only [react, bind_assoc, run_decoded, pure_bind]
    cases RequestAccount.decode h.generation data with
    | error e => rfl
    | ok r =>
      cases status : r.status <;>
        simp only [RequestView.isFulfilled, status, reduceCtorEq, Bool.false_eq_true, if_true, if_false] <;> rfl

end Client

/-- A call of `wait`. -/
structure Waiter where
  client : Client
  handle : RequestHandle
  timeout : Nat
  interval : Nat

namespace Waiter

abbrev program (w : Waiter) : Address := w.client.program

def start (w : Waiter) : LedgerDialogue (Except ClientError WaitOutcome) :=
  (Client.wait w.handle w.timeout w.interval).run

/-- What is left of a wait that goes on with a handle. -/
def remaining (w : Waiter) (s : RequestHandle) (elapsed attempts : Nat) :
    LedgerDialogue (Except ClientError WaitOutcome) :=
  (Wait.loop Client.poll w.handle.requestId w.timeout w.interval s elapsed attempts).run

/-- How it goes on if a poll has decided nothing. -/
def onward (w : Waiter) (s : RequestHandle) (elapsed attempts : Nat) :
    LedgerDialogue (Except ClientError WaitOutcome) :=
  if w.timeout ≤ elapsed then .done (.error (.timeout w.handle.requestId elapsed (attempts + 1)))
  else .pause (Wait.step w.timeout w.interval elapsed)
    (w.remaining s (elapsed + Wait.step w.timeout w.interval elapsed) (attempts + 1))

/-- How it goes on with what a poll has found. -/
def found (w : Waiter) (s : RequestHandle) (elapsed attempts : Nat) :
    Option Bytes → LedgerDialogue (Except ClientError WaitOutcome)
  | some data => match RequestAccount.decode s.generation data with
    | .error e => .done (.error (.decode e))
    | .ok r =>
      if r.status = .pending then w.onward { s with seen := true } elapsed attempts
      else .done (.ok (.fulfilled ⟨s.address, r⟩))
  | none =>
    if s.seen then match s.generation with
      | .subscription => .done (.ok (.closedAfterCallback s.requestId))
      | .legacy => .done (.error (.lifecycle (.requestClosed s.requestId)))
    else w.onward s elapsed attempts

theorem remaining_eq (w : Waiter) (s : RequestHandle) (elapsed attempts : Nat) :
    w.remaining s elapsed attempts = .ask (.account s.address) fun r => match r with
      | .error e => .done (.error (.ledger e))
      | .ok data => w.found s elapsed attempts data := by
  rw [remaining, Wait.run_loop (Client.run_poll s)]
  congr 1
  funext r
  rcases r with e | _ | data
  · rfl
  · simp only [Client.react, found]
    cases s.seen
    · rfl
    · cases s.generation <;> rfl
  · simp only [Client.react, found]
    cases RequestAccount.decode s.generation data with
    | error e => rfl
    | ok r =>
      by_cases pending : r.status = .pending
      · simp only [pending, if_true]
        rfl
      · simp only [pending, if_false]

end Waiter

end Randomness
