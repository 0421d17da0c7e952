import Randomness.Ledger
import Randomness.Proofs.Execution

/-!
The ledger by its records. A ledger whose accounts match a registry executes a transaction if and only
if the registry accepts its operations in order, and then they match again.
-/

namespace Randomness

namespace Operation

/-- Operations in order, each on the records that the one before it left. -/
def run [Crypto] (x : Scene) (σ : Registry) : List Operation → Option Registry.Result
  | [] => some (σ, [])
  | o :: os => do
    let (τ, log) ← o.step x σ
    let (υ, rest) ← run x τ os
    return (υ, .invoke o.program 1 :: log ++ .success o.program :: rest)

/-- Whether an operation proves that the authority signed exactly this id and randomness. -/
def attests [Crypto] (authority : Address) (id : UInt64) (randomness : Block 32) : Operation → Bool
  | command _ _ => false
  | signature secret message =>
    Crypto.publicKey secret = authority && message = (Proof.message id randomness).bytes &&
      Crypto.verify authority message (Crypto.sign secret message)

end Operation

/-- A ledger that keeps records instead of accounts. -/
structure RecordLedger where
  registry : Registry
  slot : UInt64
  transactions : UInt64

namespace RecordLedger

def fresh : RecordLedger := ⟨Registry.empty, 100, 0⟩

/-- Accepts all operations of a transaction, or none; with what is logged. -/
def submit [Crypto] (w : RecordLedger) (t : Submission) : Option (RecordLedger × List LogEntry) := do
  let slot ← (Coordinator.next64 w.slot).toOption
  let scene : Scene := ⟨slot, t.signers, fun authority id randomness =>
    t.operations.any (Operation.attests authority id randomness)⟩
  let (registry, log) ← Operation.run scene w.registry t.operations
  let transactions ← (Coordinator.next64 w.transactions).toOption
  return (⟨registry, slot, transactions⟩, log)

end RecordLedger

/-- The accounts are exactly the records, all of them over the programs and consumers `keys`. -/
structure Related [Crypto] (keys : Set Address) (l : Ledger) (w : RecordLedger) : Prop where
  accounts : Matches l.accounts w.registry
  inside : w.registry.Over keys
  slot : l.slot = w.slot
  transactions : l.transactions = w.transactions

section

variable [Crypto] {keys : Set Address}

/-- The instructions of a transaction, one after the other. -/
theorem executeFrom_agrees (x : Surroundings) (n : Nat) {s : Accounts} {σ : Registry} {os : List Operation}
    {is : List Instruction} (hf : Fits keys s σ) (inside : ∀ o ∈ os, o.Over keys)
    (made : os.mapM Operation.instruction = .ok is) :
    Agrees (Says keys) (Operation.run x.scene σ os) (Ledger.executeFrom x n s is) := by
  induction os generalizing n s σ is with
  | nil =>
    cases made
    exact .done ⟨rfl, hf⟩
  | cons o os ih =>
    obtain ⟨i, is, hi, rest, rfl⟩ := Submission.instructions_cons_eq_ok.1 made
    have first := Operation.execute_agrees x hf (inside o List.mem_cons_self) hi
    rw [Operation.run, Ledger.executeFrom]
    refine (first.mapError _).bind ?_
    intro held e held'
    obtain ⟨τ, log⟩ := held
    obtain ⟨logged, fits⟩ := held'
    refine (ih (n + 1) fits (fun p hp => inside p (List.mem_cons_of_mem o hp)) rest).bind ?_
    intro held e' held'
    obtain ⟨υ, log'⟩ := held
    obtain ⟨logged', fits'⟩ := held'
    refine .done ⟨?_, fits'⟩
    simp only [Operation.program_of_instruction hi, logged, logged']

namespace Proof

variable (secret : Secret) (message : Bytes)

theorem instruction_data : (instruction secret message).data =
    (Block.bytes (n := 16) ⟨header message.length, rfl⟩ ++ (Crypto.publicKey secret).bytes) ++
      ((Crypto.sign secret message).bytes ++ message) := by
  simp only [instruction, List.append_assoc]

theorem key_of_instruction :
    (instruction secret message).data.slice? keyOffset 32 = some (Crypto.publicKey secret) := by
  rw [instruction_data, List.append_assoc]
  exact Bytes.slice?_append _ (Crypto.publicKey secret) _

theorem signature_of_instruction :
    (instruction secret message).data.slice? signatureOffset 64 = some (Crypto.sign secret message) := by
  rw [instruction_data, ← Block.append_bytes]
  exact Bytes.slice?_append _ (Crypto.sign secret message) message

theorem message_of_instruction : (instruction secret message).data.drop messageOffset = message := by
  rw [instruction_data, ← Block.append_bytes, ← List.append_assoc, ← Block.append_bytes]
  exact List.drop_left' (Block.length_eq _)

end Proof

theorem proves_signature (authority : Address) (id : UInt64) (randomness : Block 32) (secret : Secret)
    (message : Bytes) :
    Coordinator.proves authority id randomness (Proof.instruction secret message) =
      Operation.attests authority id randomness (.signature secret message) := by
  have key : (Proof.instruction secret message).data.slice? 16 32 = _ := Proof.key_of_instruction secret message
  have signature : (Proof.instruction secret message).data.slice? 48 64 = _ :=
    Proof.signature_of_instruction secret message
  have behind : (Proof.instruction secret message).data.drop 112 = _ :=
    Proof.message_of_instruction secret message
  simp only [Coordinator.proves, key, signature, behind]
  rfl

/-- A coordinator's instruction proves nothing. -/
theorem proves_eq_attests {o : Operation} {i : Instruction} (proper : o.Proper) (hi : o.instruction = .ok i)
    (authority : Address) (id : UInt64) (randomness : Block 32) :
    Coordinator.proves authority id randomness i = o.attests authority id randomness := by
  cases o with
  | command P c =>
    have other : i.program ≠ Instruction.signatureProgram := by
      rw [Command.program_of_instruction hi]
      exact proper
    rw [Coordinator.proves, decide_eq_false other, Bool.false_and]
    rfl
  | signature secret message =>
    cases hi
    exact proves_signature authority id randomness secret message

theorem any_proves_eq {os : List Operation} {is : List Instruction} (proper : ∀ o ∈ os, o.Proper)
    (made : os.mapM Operation.instruction = .ok is) (authority : Address) (id : UInt64)
    (randomness : Block 32) :
    is.any (Coordinator.proves authority id randomness) =
      os.any (Operation.attests authority id randomness) := by
  induction os generalizing is with
  | nil =>
    cases made
    rfl
  | cons o os ih =>
    obtain ⟨i, is, hi, rest, rfl⟩ := Submission.instructions_cons_eq_ok.1 made
    have first := proves_eq_attests (proper o List.mem_cons_self) hi authority id randomness
    have others := ih (fun p hp => proper p (List.mem_cons_of_mem o hp)) rest
    rw [List.any_cons, List.any_cons, first, others]

theorem RecordLedger.submit_agrees (distinct : DistinctAddresses keys) {l : Ledger} {w : RecordLedger}
    (h : Related keys l w) {t : Submission} {is : List Instruction} (inside : t.Over keys)
    (proper : ∀ o ∈ t.operations, o.Proper) (made : t.instructions = .ok is) :
    Agrees (fun r q => Related keys q.1 r.1 ∧ q.2.slot = r.1.slot ∧ q.2.logs = r.2.map LogEntry.text)
      (w.submit t) (l.submit is t.signers) := by
  have fits : Fits keys l.accounts w.registry := ⟨h.accounts, distinct, h.inside⟩
  rw [RecordLedger.submit, Ledger.submit, ← h.slot, ← h.transactions]
  refine ((Agrees.toOption _).mapError _).bind ?_
  intro slot _ same
  subst same
  have scene : Surroundings.scene ⟨slot, is, t.signers⟩ = ⟨slot, t.signers, fun authority id randomness =>
      t.operations.any (Operation.attests authority id randomness)⟩ := by
    simp only [Surroundings.scene, any_proves_eq proper made]
  rw [← scene]
  refine (executeFrom_agrees ⟨slot, is, t.signers⟩ 0 fits inside made).bind ?_
  intro held e held'
  obtain ⟨τ, log⟩ := held
  obtain ⟨logged, fits'⟩ := held'
  refine ((Agrees.toOption _).mapError _).bind ?_
  intro transactions _ same
  subst same
  refine .done ⟨⟨fits'.toMatches, fits'.inside, rfl, rfl⟩, rfl, ?_⟩
  rw [← logged]

theorem Related.fresh : Related keys Ledger.fresh RecordLedger.fresh where
  accounts := Matches.empty
  inside := by
    intro t r h
    cases h
  slot := rfl
  transactions := rfl

/-- A transaction that is refused changes nothing. -/
theorem Ledger.answer_refused {l l' : Ledger} {is : List Instruction} {signers : List Address}
    {e : LedgerError} (h : l.answer is signers = .ok (l', .error e)) : l' = l := by
  unfold answer at h
  split at h
  · cases h
  · cases h
    rfl
  · cases h

theorem Ledger.answer_accepted {l l' : Ledger} {is : List Instruction} {signers : List Address}
    {e : Execution} : l.answer is signers = .ok (l', .ok e) ↔ l.submit is signers = .ok (l', e) := by
  unfold answer
  split
  · next h => simp [h]
  · next h => simp [h]
  · next h => simp [h]

/-- The ledger refines the ledger of records, as long as no two sites over the programs and consumers
in use share an address. -/
theorem Ledger.refines_records (distinct : DistinctAddresses keys) :
    Related keys Ledger.fresh RecordLedger.fresh ∧
    ∀ l w, Related keys l w → ∀ t is, t.Over keys → (∀ o ∈ t.operations, o.Proper) →
      t.instructions = .ok is →
        ((∃ l' e, l.answer is t.signers = .ok (l', .ok e)) ↔ ∃ w' log, w.submit t = some (w', log)) ∧
        (∀ l' e w' log, l.answer is t.signers = .ok (l', .ok e) → w.submit t = some (w', log) →
          Related keys l' w' ∧ e.slot = w'.slot ∧ e.logs = log.map LogEntry.text) ∧
        ∀ l' e, l.answer is t.signers = .ok (l', .error e) → l' = l := by
  refine ⟨Related.fresh, ?_⟩
  intro l w h t is inside proper made
  have both := RecordLedger.submit_agrees distinct h inside proper made
  simp only [Ledger.answer_accepted]
  refine ⟨?_, ?_, fun l' e => Ledger.answer_refused⟩
  · simpa only [Prod.exists] using both.accepts_iff
  · intro l' e w' log hl hw
    rw [hl, hw] at both
    exact both.related

end

namespace Recorded

/-- Both configurations are created, and one request of the legacy generation is made. -/
def opening : Submission where
  operations :=
    [.command program (.initializeLegacy program consumer program 5),
      .command program (.requestRandomness consumer program none 0 (List.replicate 32 4)),
      .command program (.initializeSubscription program consumer 7 3)]
  signers := [program, consumer]

/-- The ledger executes the opening, and relates to the records that the opening makes. -/
theorem opening_refines : ∃ is, @Submission.instructions crypto opening = .ok is ∧
    ∃ l e w log, @Ledger.answer crypto Ledger.fresh is opening.signers = .ok (l, .ok e) ∧
      @RecordLedger.submit crypto RecordLedger.fresh opening = some (w, log) ∧
      @Related crypto Set.univ l w ∧ w.registry (.legacyRequest program 0) ≠ none := by
  let _ := crypto
  have made : opening.instructions.toOption.isSome = true := by decide +kernel
  cases hi : opening.instructions with
  | error e =>
    rw [hi] at made
    cases made
  | ok is =>
    have accepted : ((RecordLedger.fresh.submit opening).any fun r =>
        (r.1.registry (.legacyRequest program 0)).isSome) = true := by decide +kernel
    obtain ⟨⟨w, log⟩, hw, requested⟩ := (Option.any_eq_true _ _).1 accepted
    have inside : opening.Over Set.univ := by simp [Submission.Over, opening, Operation.Over]
    have proper : ∀ o ∈ opening.operations, o.Proper := by
      simp only [opening, List.mem_cons, List.not_mem_nil, or_false, forall_eq_or_imp, forall_eq,
        Operation.Proper]
      decide
    obtain ⟨iff, related, _⟩ := (Ledger.refines_records distinct).2 Ledger.fresh RecordLedger.fresh
      Related.fresh opening is inside proper hi
    obtain ⟨l, e, executed⟩ := iff.2 ⟨w, log, hw⟩
    refine ⟨is, rfl, l, e, w, log, executed, hw, (related l e w log executed hw).1, ?_⟩
    intro absent
    rw [absent] at requested
    cases requested

end Recorded

end Randomness
