import Randomness.Client

/-!
Waiting: a request is observed again and again until it is fulfilled or gone, or time is up.
-/

namespace Randomness

inductive WaitOutcome where
  | fulfilled (v : RequestView)
  /-- The request was fulfilled, its callback ran and its account was closed. -/
  | closedAfterCallback (requestId : UInt64)
  deriving DecidableEq

namespace WaitOutcome

def requestId : WaitOutcome → UInt64
  | fulfilled v => v.account.requestId
  | closedAfterCallback id => id

end WaitOutcome

namespace Wait

/-- The time until the next poll: the interval, or what is left. It is never zero while time is
left. -/
def step (timeout interval elapsed : Nat) : Nat := min (max 1 interval) (timeout - elapsed)

/-- Asks `poll` until it gives an answer or `timeout` milliseconds have passed; the last poll is at
the timeout. Between polls it passes on a state of its own. The polls are counted without a bound: a counter of
32 bits agrees with this one below 2^32 polls only. -/
def loop {Q : Type} {A : Q → Type} {σ α : Type} (poll : σ → ExceptT ClientError (Dialogue Q A) (α ⊕ σ))
    (requestId : UInt64) (timeout interval : Nat) (s : σ) (elapsed attempts : Nat) :
    ExceptT ClientError (Dialogue Q A) α := do
  match ← poll s with
  | .inl a => return a
  | .inr s =>
    if timeout ≤ elapsed then throw (.timeout requestId elapsed (attempts + 1))
    else
      (Dialogue.sleep (step timeout interval elapsed) : Dialogue Q A Unit)
      loop poll requestId timeout interval s (elapsed + step timeout interval elapsed) (attempts + 1)
termination_by timeout - elapsed
decreasing_by unfold step; omega

end Wait

namespace Client

/-- One poll: the outcome, or the handle to go on with. A request that has been seen once and is
absent later was closed; under the legacy generation that means its randomness is lost. -/
def poll (h : RequestHandle) : ClientM (WaitOutcome ⊕ RequestHandle) := do
  match ← observe h with
  | .found v => if v.isFulfilled then return .inl (.fulfilled v) else return .inr { h with seen := true }
  | .notFound .closed => match h.generation with
    | .subscription => return .inl (.closedAfterCallback h.requestId)
    | .legacy => throw (.lifecycle (.requestClosed h.requestId))
  | .notFound .notYetCreated => return .inr h

/-- Polls at once, after every `interval` milliseconds, and when `timeout` milliseconds have
passed. -/
def wait (h : RequestHandle) (timeout interval : Nat) : ClientM WaitOutcome :=
  Wait.loop poll h.requestId timeout interval h 0 0

/-- Waits for several requests at once, each with its own time. -/
def waitAll (hs : List RequestHandle) (timeout interval : Nat) :
    LedgerDialogue (List (Except ClientError WaitOutcome)) :=
  Dialogue.all (hs.map fun h => (wait h timeout interval).run)

end Client

end Randomness
