import Randomness.Proofs.Annals
import Randomness.Proofs.Arena

/-!
What is executed on the ledger of an arena: the transactions of the callers and of everyone else, in the order
of the moves.
-/

namespace Randomness

variable [Crypto] {keys : Set Address}

/-- A question's instructions are those of operations. -/
def LedgerRequest.Made (keys : Set Address) : LedgerRequest → Prop
  | account _ => True
  | submit is _ => ∃ os : List Operation, (∀ o ∈ os, o.Over keys) ∧ os.mapM Operation.instruction = .ok is

namespace Ledger

/-- What a question executes. -/
def prompted (l : Ledger) : LedgerRequest → List Deed
  | .account _ => []
  | .submit is signers => l.executed is signers

variable {l : Ledger} {D : List Deed}

theorem told_submit_of_error {is : List Instruction} {signers : List Address} {f : Failure}
    (refused : l.submit is signers = .error f) :
    (l.told (.submit is signers)).1 = l ∧ l.executed is signers = [] := by
  obtain ⟨n, r | c⟩ := f <;> simp only [told, answer, executed, refused, and_self]

theorem told_submit_of_ok {l' : Ledger} {is : List Instruction} {signers : List Address} {e : Execution}
    (accepted : l.submit is signers = .ok (l', e)) : (l.told (.submit is signers)).1 = l' := by
  simp only [told, answer, accepted]

theorem Reached.told (h : l.Reached keys D) {q : LedgerRequest} (made : q.Made keys) :
    (l.told q).1.Reached keys (D ++ l.prompted q) := by
  cases q with
  | account a => simpa [Ledger.told, prompted] using h
  | submit is signers =>
    obtain ⟨os, inside, made⟩ := made
    cases submitted : l.submit is signers with
    | error f =>
      obtain ⟨same, nothing⟩ := told_submit_of_error submitted
      simpa [prompted, same, nothing] using h
    | ok r =>
      obtain ⟨l', e⟩ := r
      rw [told_submit_of_ok submitted]
      exact h.submit inside made submitted

/-- A transaction of one instruction that changes the ledger is one deed. -/
theorem executed_one {i : Instruction} {signers : List Address}
    (changed : (l.told (.submit [i] signers)).1 ≠ l) : ∃ d, l.executed [i] signers = [d] ∧
      d.instruction = i ∧ d.signers = signers ∧ d.before = l.accounts ∧
      d.after = (l.told (.submit [i] signers)).1.accounts := by
  cases submitted : l.submit [i] signers with
  | error f => exact absurd (told_submit_of_error submitted).1 changed
  | ok r =>
    obtain ⟨l', e⟩ := r
    rw [told_submit_of_ok submitted]
    simp only [executed, submitted]
    obtain ⟨slot, effect, transactions, _, run, _, rfl, rfl⟩ := submit_eq_ok.1 submitted
    simp only [executeFrom, bind_eq_ok, mapError_eq_ok, pure_eq_ok, Except.ok.injEq] at run
    obtain ⟨first, does, _, rfl, rfl⟩ := run
    simp only [Surroundings.deeds, does]
    exact ⟨_, rfl, rfl, rfl, rfl, rfl⟩

end Ledger

/-- What an exchange has executed is among the deeds. -/
structure Exchange.Noted {ι : Type} (D : List Deed) (x : Exchange ι) : Prop where
  told : x.after = (x.before.told x.question).1
  deeds : ∀ d ∈ x.before.prompted x.question, d ∈ D

/-- A transaction of one instruction that changes the ledger is one of the deeds. -/
theorem Exchange.Noted.deed {ι : Type} {D : List Deed} {x : Exchange ι} (h : x.Noted D) {i : Instruction}
    {signers : List Address} (sent : x.question = .submit [i] signers) (changed : x.after ≠ x.before) :
    ∃ d ∈ D, d.instruction = i ∧ d.signers = signers ∧ d.before = x.before.accounts ∧
      d.after = x.after.accounts := by
  have told := h.told
  rw [sent] at told
  rw [told] at changed ⊢
  obtain ⟨d, only, made⟩ := Ledger.executed_one changed
  refine ⟨d, h.deeds d ?_, made⟩
  rw [sent, Ledger.prompted, only]
  exact List.mem_singleton_self d

namespace Arena

variable {ι α : Type}

/-- What a move executes. -/
def prompted (A : Arena ι α) : Move ι → List Deed
  | .transact t => A.ledger.deeds t
  | .turn k => match A.talks k with
    | .ok (.ask q _) => A.ledger.prompted q
    | _ => []

variable [DecidableEq ι]

def annals (A : Arena ι α) : List (Move ι) → List Deed
  | [] => []
  | m :: ms => A.prompted m ++ (A.step m).annals ms

/-- What the callers have executed since is among what was executed. -/
theorem noted (A : Arena ι α) (moves : List (Move ι)) :
    ∀ x ∈ (A.run moves).exchanges, x ∈ A.exchanges ∨ x.Noted (A.annals moves) := by
  induction moves generalizing A with
  | nil => exact fun x hx => .inl hx
  | cons m moves ih =>
    intro x hx
    have later (d : Deed) (hd : d ∈ A.prompted m) : d ∈ A.annals (m :: moves) := List.mem_append_left _ hd
    rcases ih (A.step m) x hx with found | ⟨told, deeds⟩
    · cases m with
      | transact t => exact .inl found
      | turn k =>
        change x ∈ (A.turn k).exchanges at found
        rcases A.turn_cases k with ⟨_, stays⟩ | ⟨ms, next, _, _, exchanges, _⟩ |
          ⟨q, next, talk, _, exchanges, _⟩
        · exact .inl (by rwa [stays] at found)
        · exact .inl (by rwa [exchanges] at found)
        · rw [exchanges, List.mem_append, List.mem_singleton] at found
          refine found.imp_right fun asked => ?_
          subst asked
          exact ⟨rfl, fun d hd => later d (by simpa only [prompted, talk] using hd)⟩
    · exact .inr ⟨told, fun d hd => List.mem_append_right _ (deeds d hd)⟩

variable {G : List (Exchange ι) → Ledger → List Deed → Prop}
  {I : ι → List (Exchange ι) → List Deed → Except Crash (LedgerDialogue α) → Prop}
  (later : ∀ k E D D' d, I k E D d → I k E (D ++ D') d)
  (transact : ∀ X l D t, t.Over keys → G X l D → G X (l.after t).1 (D ++ l.deeds t))
  (pause : ∀ k E D ms next, I k E D (.ok (.pause ms next)) → I k E D (.ok next))
  (told : ∀ k X E l D q next, G X l D → I k E D (.ok (.ask q next)) →
    let x : Exchange ι := ⟨k, l, (l.told q).1, q, (l.told q).2⟩
    G (X ++ [x]) (l.told q).1 (D ++ l.prompted q) ∧
      I k (E ++ [x]) (D ++ l.prompted q) ((l.told q).2.map next))

include later transact pause told

theorem step_induction_annals {A : Arena ι α} {D : List Deed} (all : G A.exchanges A.ledger D)
    (each : ∀ j, I j (A.asked j) D (A.talks j)) {m : Move ι} (inside : m.Over keys) :
    G (A.step m).exchanges (A.step m).ledger (D ++ A.prompted m) ∧
      ∀ j, I j ((A.step m).asked j) (D ++ A.prompted m) ((A.step m).talks j) := by
  cases m with
  | transact t =>
    exact ⟨transact _ _ D t inside all, fun j => later j _ D _ _ (each j)⟩
  | turn k =>
    change G (A.turn k).exchanges (A.turn k).ledger _ ∧ ∀ j, I j ((A.turn k).asked j) _ ((A.turn k).talks j)
    rcases A.turn_cases k with ⟨ended, stays⟩ | ⟨ms, next, talk, ledger, exchanges, talks⟩ |
      ⟨q, next, talk, ledger, exchanges, talks⟩
    · have nothing : A.prompted (.turn k) = [] := by
        rcases ended with ⟨a, talk⟩ | ⟨f, talk⟩ <;> simp only [prompted, talk]
      rw [stays, nothing, List.append_nil]
      exact ⟨all, each⟩
    · have nothing : A.prompted (.turn k) = [] := by simp only [prompted, talk]
      rw [exchanges, ledger, nothing, List.append_nil]
      refine ⟨all, fun j => ?_⟩
      have asked : (A.turn k).asked j = A.asked j := by rw [Arena.asked, exchanges, ← Arena.asked]
      rw [asked, talks]
      by_cases same : j = k
      · subst same
        rw [Function.update_self]
        have mine := each j
        rw [talk] at mine
        exact pause j _ D ms next mine
      · rw [Function.update_of_ne same]
        exact each j
    · have prompts : A.prompted (.turn k) = A.ledger.prompted q := by simp only [prompted, talk]
      have mine := each k
      rw [talk] at mine
      obtain ⟨all', own⟩ := told k A.exchanges (A.asked k) A.ledger D q next all mine
      rw [exchanges, ledger, prompts]
      refine ⟨all', fun j => ?_⟩
      rw [asked_snoc exchanges, talks]
      by_cases same : j = k
      · subst same
        rw [if_pos rfl, Function.update_self]
        exact own
      · rw [if_neg same, Function.update_of_ne same]
        exact later j _ D _ _ (each j)

/-- What holds of all exchanges, the ledger and what was executed on it, and of each caller's own exchanges and
what was executed, and is kept by transactions and by single turns, holds after all moves. -/
theorem run_induction_annals {A : Arena ι α} {D : List Deed} (all : G A.exchanges A.ledger D)
    (each : ∀ j, I j (A.asked j) D (A.talks j)) {moves : List (Move ι)} (inside : ∀ m ∈ moves, m.Over keys) :
    G (A.run moves).exchanges (A.run moves).ledger (D ++ A.annals moves) ∧
      ∀ j, I j ((A.run moves).asked j) (D ++ A.annals moves) ((A.run moves).talks j) := by
  induction moves generalizing A D with
  | nil =>
    rw [annals, List.append_nil]
    exact ⟨all, each⟩
  | cons m moves ih =>
    obtain ⟨all', each'⟩ := step_induction_annals later transact pause told all each
      (inside m List.mem_cons_self)
    rw [annals, ← List.append_assoc]
    exact ih all' each' fun n hn => inside n (List.mem_cons_of_mem _ hn)

end Arena

end Randomness
