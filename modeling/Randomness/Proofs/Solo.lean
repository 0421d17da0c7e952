import Randomness.Proofs.Arena
import Randomness.Proofs.Booking
import Randomness.Proofs.Conversation

/-!
One caller that has a ledger to itself: what it asks, which of its questions are transactions, and what comes of
them.
-/

namespace Randomness

/-- A conversation with a ledger that nobody else uses. -/
structure Solo (α : Type) where
  ledger : Ledger
  exchanges : List (Exchange Unit)
  outcome : Except Crash α

def Solo.transactions (s : Solo α) : List (Exchange Unit) := s.exchanges.filter fun x => x.question.isSubmit

/-- It ends with an error, and nothing has been asked for. -/
def Solo.Fails (l : Ledger) (s : Solo (Except ClientError α)) : Prop := ∃ e, s = ⟨l, [], .ok (.error e)⟩

theorem Solo.Fails.exchanges {l : Ledger} {s : Solo (Except ClientError α)} (h : s.Fails l) : s.exchanges = [] := by
  obtain ⟨e, rfl⟩ := h
  rfl

/-- The transaction was carried out, and its effects are in the ledger after it. -/
def Exchange.Executed [Crypto] (x : Exchange ι) : Prop :=
  ∃ is signers e, x.question = .submit is signers ∧ x.before.submit is signers = .ok (x.after, e)

variable [Crypto]

/-- Whether the ledger carries the transaction out. -/
def Exchange.accepted (x : Exchange ι) : Bool :=
  match x.question with
  | .account _ => false
  | .submit is signers => (x.before.submit is signers).toOption.isSome

theorem Exchange.Executed.accepted {x : Exchange ι} (h : x.Executed) : x.accepted = true := by
  obtain ⟨is, signers, e, question, executed⟩ := h
  rw [Exchange.accepted, question]
  simp only [executed]
  rfl

/-- A conversation until it ends, or until a crash ends it. -/
def Ledger.converse : LedgerDialogue α → Ledger → Solo α
  | .done a, l => ⟨l, [], .ok a⟩
  | .pause _ next, l => converse next l
  | .ask q next, l => match l.told q with
    | (l', .error f) => ⟨l', [⟨(), l, l', q, .error f⟩], .error f⟩
    | (l', .ok r) =>
      let rest := converse (next r) l'
      { rest with exchanges := ⟨(), l, l', q, .ok r⟩ :: rest.exchanges }

namespace Ledger

variable {l : Ledger}

/-- It is the conversation's run with the ledger's answers, while time makes no difference. -/
theorem run_eq_converse (d : LedgerDialogue α) (l : Ledger) :
    d.run (m := StateT Ledger (Except Crash)) (fun q l => (l.told q).2.map fun r => (r, (l.told q).1))
      (fun _ => pure ()) l = (l.converse d).outcome.map fun a => (a, (l.converse d).ledger) := by
  induction d generalizing l with
  | done a => rfl
  | pause ms next ih => exact ih l
  | ask q next ih =>
    rw [converse]
    change ((l.told q).2.map fun r => (r, (l.told q).1)) >>= _ = _
    generalize l.told q = r
    obtain ⟨l', f | a⟩ := r
    · rfl
    · exact ih a l'

/-- The transactions of a client's conversation. -/
def sent (m : ClientM α) (l : Ledger) : List (Exchange Unit) := (l.converse m.run).transactions

/-- A client's conversation without what it reads. -/
def perform (m : ClientM α) (l : Ledger) : Solo (Except ClientError α) :=
  { l.converse m.run with exchanges := l.sent m }

theorem perform_account {a : Address} {f : Option Bytes → ClientM α} :
    l.perform (Client.account a >>= f) = l.perform (f (l.get? a)) := by
  rw [perform, sent, Client.run_account]
  rfl

theorem perform_submitAll {is : List Instruction} {signers : List Address} {f : Execution → ClientM α} :
    let r := l.told (.submit is signers)
    let x : Exchange Unit := ⟨(), l, r.1, .submit is signers, r.2⟩
    l.perform (Client.submitAll is signers >>= f) = match r.2 with
      | .ok (.ok e) => { r.1.perform (f e) with exchanges := x :: (r.1.perform (f e)).exchanges }
      | .ok (.error e) => ⟨r.1, [x], .ok (.error (.ledger e))⟩
      | .error c => ⟨r.1, [x], .error c⟩ := by
  rw [perform, sent, Client.run_submitAll, converse]
  generalize l.told (.submit is signers) = r
  obtain ⟨l', c | e | x⟩ := r <;> rfl

theorem perform_addressOf {c : Client} {p : Place} {f : Address → ClientM α} :
    l.perform (c.addressOf p >>= f) = match p.address c.program with
      | .ok (a, _) => l.perform (f a)
      | .error e => ⟨l, [], .ok (.error (.derivation e))⟩ := by
  rw [perform, sent, Client.run_addressOf]
  cases p.address c.program <;> rfl

theorem perform_decoded {x : Except DecodeError α} {f : α → ClientM β} :
    l.perform (Client.decoded x >>= f) = match x with
      | .ok a => l.perform (f a)
      | .error e => ⟨l, [], .ok (.error (.decode e))⟩ := by
  cases x <;> rfl

theorem perform_built {x : Except BuildError α} {f : α → ClientM β} :
    l.perform (Client.built x >>= f) = match x with
      | .ok a => l.perform (f a)
      | .error e => ⟨l, [], .ok (.error (.ofBuild e))⟩ := by
  cases x <;> rfl

theorem perform_pure {a : α} : l.perform (pure a) = ⟨l, [], .ok (.ok a)⟩ := rfl

theorem perform_throw {e : ClientError} : l.perform (throw e : ClientM α) = ⟨l, [], .ok (.error e)⟩ := rfl

/-! ## Slots -/

/-- An executed transaction takes the next slot and the next number. -/
theorem submit_counts {l' : Ledger} {is : List Instruction} {signers : List Address} {e : Execution}
    (executed : l.submit is signers = .ok (l', e)) :
    l'.slot.toNat = l.slot.toNat + 1 ∧ l'.transactions.toNat = l.transactions.toNat + 1 := by
  obtain ⟨slot, effect, transactions, hslot, run, counted, rfl, rfl⟩ := submit_eq_ok.1 executed
  exact ⟨Coordinator.next64_eq_ok hslot, Coordinator.next64_eq_ok counted⟩

/-- Slots run ahead of transactions, so there are transactions left as long as there are slots. -/
def Paced (l : Ledger) : Prop := l.slot.toNat = l.transactions.toNat + 100

namespace Paced

theorem submit {l' : Ledger} {is : List Instruction} {signers : List Address} {e : Execution} (h : l.Paced)
    (executed : l.submit is signers = .ok (l', e)) : l'.Paced := by
  obtain ⟨slot, transactions⟩ := submit_counts executed
  have before : l.slot.toNat = l.transactions.toNat + 100 := h
  change l'.slot.toNat = l'.transactions.toNat + 100
  omega

theorem after (h : l.Paced) (t : Submission) : (l.after t).1.Paced := by
  rw [Ledger.after]
  cases t.instructions with
  | error e => exact h
  | ok is =>
    cases executed : l.submit is t.signers with
    | error f => simpa only [executed] using h
    | ok r => simpa only [executed] using h.submit executed

theorem history (ts : List Submission) : (history ts).1.Paced := by
  induction ts using List.reverseRecOn with
  | nil => rfl
  | append_singleton ts t ih =>
    rw [Ledger.history, List.foldl_append]
    exact ih.after t

omit [Crypto] in
theorem room (h : l.Paced) (slot : l.slot.toNat + 1 < UInt64.size) :
    l.transactions.toNat + 1 < UInt64.size := by
  have before : l.slot.toNat = l.transactions.toNat + 100 := h
  omega

end Paced

theorem told_without_slot {is : List Instruction} {signers : List Address}
    (full : ¬ l.slot.toNat + 1 < UInt64.size) : l.told (.submit is signers) = (l, .error .arithmetic) := by
  simp only [told, answer_without_slot full]

theorem told_of_submit {l' : Ledger} {is : List Instruction} {signers : List Address} {e : Execution}
    (executed : l.submit is signers = .ok (l', e)) : l.told (.submit is signers) = (l', .ok (.ok e)) := by
  simp only [told, answer, executed]

theorem told_of_refused {is : List Instruction} {signers : List Address} {n : Nat} {r : Refusal}
    (refused : l.submit is signers = .error ⟨n, .refused r⟩) : l.told (.submit is signers) =
      (l, .ok (.error (.custom ("instruction " ++ toString n ++ " failed: " ++ r.message)))) := by
  simp only [told, answer, refused]

/-- A transaction that has carried out one command. -/
structure Carries (keys : Set Address) (P : Address) (c : Command) (x : Exchange Unit) (σ τ : Registry) :
    Prop where
  executed : x.Executed
  does : ∃ y log, c.Does y σ P (τ, log)
  backed : Backed keys x.after.accounts τ x.after.slot
  paced : x.after.Paced
  slot : x.after.slot.toNat = x.before.slot.toNat + 1
  transactions : x.after.transactions.toNat = x.before.transactions.toNat + 1

section

variable {P : Address} {c : Command} {i : Instruction} {signers : List Address}
  (made : c.instruction P = .ok i) (k : Execution → ClientM α)

include made

/-- A signed command whose conditions hold is carried out, as long as there are slots. -/
theorem perform_command {keys : Set Address} {σ : Registry} (h : Backed keys l.accounts σ l.slot)
    (paced : l.Paced) (proper : P ≠ Instruction.signatureProgram) (inside : (Operation.command P c).Over keys)
    (signed : c.signer ∈ signers) (does : ∀ x : Scene, ∃ r, c.Does x σ P r)
    (slot : l.slot.toNat + 1 < UInt64.size) : ∃ x τ e, Carries keys P c x σ τ ∧ x.before = l ∧
      l.perform (Client.built (c.instruction P) >>= fun i => Client.submitAll [i] signers >>= k) =
        { x.after.perform (k e) with exchanges := x :: (x.after.perform (k e)).exchanges } := by
  obtain ⟨l', e, executed⟩ := accepts_one h inside made signed does slot (paced.room slot)
  obtain ⟨x, τ, log, _, stepped, backed, _⟩ := submit_one h inside made executed
  obtain ⟨next, counted⟩ := submit_counts executed
  refine ⟨⟨(), l, l', .submit [i] signers, .ok (.ok e)⟩, τ, e, ?_, rfl, ?_⟩
  · exact ⟨⟨_, _, e, rfl, executed⟩, ⟨x, log, Operation.does_of_step proper stepped⟩, backed,
      paced.submit executed, next, counted⟩
  · simp only [perform_built, made, perform_submitAll, told_of_submit executed]

theorem perform_without_slot (full : ¬ l.slot.toNat + 1 < UInt64.size) :
    let s := l.perform (Client.built (c.instruction P) >>= fun i => Client.submitAll [i] signers >>= k)
    s.ledger = l ∧ s.exchanges.length = 1 ∧ s.outcome = .error .arithmetic := by
  simp only [perform_built, made, perform_submitAll, told_without_slot full]
  exact ⟨trivial, rfl, trivial⟩

/-- A command that is refused has no effect. -/
theorem perform_refused (slot : l.slot.toNat + 1 < UInt64.size) {r : Refusal}
    (ran : Coordinator.execute ⟨l.slot + 1, [i], signers⟩ i l.accounts = .error (.refused r)) :
    let s := l.perform (Client.built (c.instruction P) >>= fun i => Client.submitAll [i] signers >>= k)
    s.ledger = l ∧ s.exchanges.length = 1 ∧
      s.outcome = .ok (.error (.ledger (.custom ("instruction 0 failed: " ++ r.message)))) := by
  simp only [perform_built, made, perform_submitAll, told_of_refused (submit_of_error slot ran)]
  exact ⟨trivial, rfl, rfl⟩

end

end Ledger

end Randomness
