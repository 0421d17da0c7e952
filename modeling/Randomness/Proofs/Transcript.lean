import Randomness.Dialogue

/-!
What is said in a conversation. A service may answer as it likes: the transcripts of a conversation are all the
ways in which it can go.
-/

namespace Randomness

/-- A question with its answer, or a wait. -/
inductive Utterance (Q : Type) (A : Q → Type) where
  | asked (q : Q) (r : A q)
  | waited (time : Nat)

namespace Dialogue

variable {Q : Type} {A : Q → Type} {α β : Type}

/-- The conversation can go like this, and ends in `a` then. -/
inductive Goes : Dialogue Q A α → List (Utterance Q A) → α → Prop
  | done (a : α) : Goes (.done a) [] a
  | ask {q : Q} {next : A q → Dialogue Q A α} {r : A q} {log : List (Utterance Q A)} {a : α}
      (rest : Goes (next r) log a) : Goes (.ask q next) (.asked q r :: log) a
  | pause {time : Nat} {next : Dialogue Q A α} {log : List (Utterance Q A)} {a : α}
      (rest : Goes next log a) : Goes (.pause time next) (.waited time :: log) a

variable {log : List (Utterance Q A)}

theorem goes_done_iff {a b : α} : (done a : Dialogue Q A α).Goes log b ↔ log = [] ∧ b = a := by
  refine ⟨fun h => ?_, ?_⟩
  · cases h
    exact ⟨rfl, rfl⟩
  · rintro ⟨rfl, rfl⟩
    exact .done _

theorem goes_ask_iff {q : Q} {next : A q → Dialogue Q A α} {a : α} :
    (ask q next).Goes log a ↔ ∃ r rest, log = .asked q r :: rest ∧ (next r).Goes rest a := by
  refine ⟨fun h => ?_, ?_⟩
  · cases h with
    | ask rest => exact ⟨_, _, rfl, rest⟩
  · rintro ⟨r, rest, rfl, h⟩
    exact .ask h

theorem goes_pause_iff {time : Nat} {next : Dialogue Q A α} {a : α} :
    (pause time next).Goes log a ↔ ∃ rest, log = .waited time :: rest ∧ next.Goes rest a := by
  refine ⟨fun h => ?_, ?_⟩
  · cases h with
    | pause rest => exact ⟨_, rfl, rest⟩
  · rintro ⟨rest, rfl, h⟩
    exact .pause h

/-- Whatever a service answers, and whatever it remembers, is a way in which the conversation can go. -/
theorem goes_run {σ : Type} (answer : (q : Q) → StateM σ (A q)) (pass : Nat → StateM σ Unit)
    (d : Dialogue Q A α) (s : σ) : ∃ log, d.Goes log (d.run answer pass s).1 := by
  induction d generalizing s with
  | done a => exact ⟨[], .done a⟩
  | ask q next ih =>
    obtain ⟨log, goes⟩ := ih (answer q s).1 (answer q s).2
    exact ⟨_, .ask goes⟩
  | pause time next ih =>
    obtain ⟨log, goes⟩ := ih (pass time s).2
    exact ⟨_, .pause goes⟩

end Dialogue

end Randomness
