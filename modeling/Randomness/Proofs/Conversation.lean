import Randomness.Client

/-!
How the client's conversations go on: conversations are a lawful monad, and each of the client's questions
goes on with its answer or ends with an error.
-/

namespace Randomness

namespace Dialogue

variable {Q : Type} {A : Q → Type} {α β γ : Type}

theorem bind_done (d : Dialogue Q A α) : d.bind done = d := by
  induction d with
  | done a => rfl
  | ask q next ih =>
    rw [Dialogue.bind]
    congr 1
    funext r
    exact ih r
  | pause ms next ih => rw [Dialogue.bind, ih]

theorem bind_bind (d : Dialogue Q A α) (f : α → Dialogue Q A β) (g : β → Dialogue Q A γ) :
    (d.bind f).bind g = d.bind fun a => (f a).bind g := by
  induction d with
  | done a => rfl
  | ask q next ih =>
    rw [Dialogue.bind, Dialogue.bind, Dialogue.bind]
    congr 1
    funext r
    exact ih r
  | pause ms next ih => rw [Dialogue.bind, Dialogue.bind, Dialogue.bind, ih]

instance : LawfulMonad (Dialogue Q A) :=
  .mk' _ bind_done (fun _ _ => rfl) bind_bind

end Dialogue

namespace Client

variable {f : α → ClientM β}

theorem run_account (a : Address) (f : Option Bytes → ClientM β) :
    (account a >>= f).run = .ask (.account a) fun r => match r with
      | .ok data => (f data).run
      | .error e => .done (.error (.ledger e)) := by
  change Dialogue.ask _ _ = _
  congr 1
  funext r
  cases r <;> rfl

theorem run_submitAll (is : List Instruction) (signers : List Address) (f : Execution → ClientM β) :
    (submitAll is signers >>= f).run = .ask (.submit is signers) fun r => match r with
      | .ok x => (f x).run
      | .error e => .done (.error (.ledger e)) := by
  change Dialogue.ask _ _ = _
  congr 1
  funext r
  cases r <;> rfl

theorem run_decoded (x : Except DecodeError α) : (decoded x >>= f).run = match x with
    | .ok a => (f a).run
    | .error e => .done (.error (.decode e)) := by
  cases x <;> rfl

theorem run_built (x : Except BuildError α) : (built x >>= f).run = match x with
    | .ok a => (f a).run
    | .error e => .done (.error (.ofBuild e)) := by
  cases x <;> rfl

theorem run_addressOf [Crypto] (c : Client) (p : Place) (f : Address → ClientM β) :
    (c.addressOf p >>= f).run = match p.address c.program with
      | .ok (a, _) => (f a).run
      | .error e => .done (.error (.derivation e)) := by
  unfold addressOf
  cases p.address c.program <;> rfl

/-- Reading a record asks for one account, and goes on only with a record. -/
theorem run_fetch (k : Kind) (what : String) (a : Address) (f : k.Record → ClientM β) :
    (fetch k what a >>= f).run = .ask (.account a) fun r => match r with
      | .error e => .done (.error (.ledger e))
      | .ok none => .done (.error (.notFound what a))
      | .ok (some data) => match k.decode data with
        | .ok r => (f r).run
        | .error e => .done (.error (.decode e)) := by
  rw [fetch, bind_assoc, run_account]
  congr 1
  funext r
  rcases r with e | _ | data
  · rfl
  · rfl
  · simp only [run_decoded]
    cases k.decode data <;> rfl

end Client

end Randomness
