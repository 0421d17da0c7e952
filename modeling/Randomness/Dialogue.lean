/-!
Conversations with a service, as data: what is asked, and how the conversation goes on for every
answer. Whoever answers decides how conversations of several callers interleave.
-/

namespace Randomness

/-- A conversation that asks questions `q : Q`, is told answers of type `A q`, lets time pass, and
ends in a value. In which unit it counts time is its own matter. -/
inductive Dialogue (Q : Type) (A : Q → Type) (α : Type) where
  | done (a : α)
  | ask (q : Q) (next : A q → Dialogue Q A α)
  | pause (time : Nat) (next : Dialogue Q A α)

namespace Dialogue

variable {Q : Type} {A : Q → Type}

def bind : Dialogue Q A α → (α → Dialogue Q A β) → Dialogue Q A β
  | done a, f => f a
  | ask q next, f => ask q fun r => (next r).bind f
  | pause time next, f => pause time (next.bind f)

instance : Monad (Dialogue Q A) where
  pure := done
  bind := bind

def map (f : α → β) : Dialogue Q A α → Dialogue Q A β
  | done a => done (f a)
  | ask q next => ask q fun r => (next r).map f
  | pause time next => pause time (next.map f)

def sleep (time : Nat) : Dialogue Q A Unit := pause time (done ())

/-- Goes on with `d` for some time and hands what is left of it to `next`. -/
def during (time : Nat) (next : Dialogue Q A β → Dialogue Q A γ) : Dialogue Q A β → Dialogue Q A γ
  | done b => pause time (next (done b))
  | ask q k => ask q fun r => during time next (k r)
  | pause n d =>
    if time = n then pause time (next d)
    else if time < n then pause time (next (pause (n - time) d))
    else pause n (during (time - n) next d)

/-- Two conversations side by side. At each instant the first one asks first. -/
def both : Dialogue Q A α → Dialogue Q A β → Dialogue Q A (α × β)
  | done a, d => d.map (a, ·)
  | ask q k, d => ask q fun r => both (k r) d
  | pause time p, d => during time (both p) d

/-- Conversations side by side. At each instant they ask in order. -/
def all : List (Dialogue Q A α) → Dialogue Q A (List α)
  | [] => done []
  | d :: ds => (both d (all ds)).map fun (a, as) => a :: as

/-- Runs a conversation with a service that answers and lets time pass. -/
def run {m : Type → Type} [Monad m] (answer : (q : Q) → m (A q)) (pass : Nat → m Unit) :
    Dialogue Q A α → m α
  | done a => pure a
  | ask q next => do (next (← answer q)).run answer pass
  | pause time next => do
    pass time
    next.run answer pass

end Dialogue

end Randomness
