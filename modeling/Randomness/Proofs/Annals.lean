import Mathlib.Data.List.Forall2
import Randomness.Client
import Randomness.Proofs.Backing
import Randomness.Proofs.Booking

/-!
The deeds that have led to a ledger. Each of them is the instruction of an operation, and does to the records
what that operation is accepted for.
-/

namespace Randomness

variable [Crypto] {keys : Set Address}

/-- A deed does to the records what an operation does. -/
structure Deed.Done (keys : Set Address) (d : Deed) (σ τ : Registry) : Prop where
  before : Backed keys d.before σ d.slot
  after : Backed keys d.after τ d.slot
  stepped : ∃ o : Operation, o.Over keys ∧ o.instruction = .ok d.instruction ∧
    o.step d.toSurroundings.scene σ = some (τ, d.log)

namespace Deed.Done

variable {d : Deed} {σ τ : Registry} {P : Address} {id : UInt64}

/-- A deed leaves the records alone, or does what a signed command does. -/
theorem cases (h : d.Done keys σ τ) :
    τ = σ ∨ ∃ P, ∃ c : Command, c.instruction P = .ok d.instruction ∧ c.signer ∈ d.signers ∧
      c.Does d.toSurroundings.scene σ P (τ, d.log) := by
  obtain ⟨o, inside, made, stepped⟩ := h.stepped
  rcases Operation.step_cases stepped with ⟨same, _⟩ | ⟨P, c, rfl, _, signed, does⟩
  · exact .inl (Prod.mk.inj same).1
  · exact .inr ⟨P, c, made, signed, does⟩

theorem handles (h : d.Done keys σ τ) (g : Generation) (P : Address) (id : UInt64) :
    τ.request? g P id = σ.request? g P id ∨ ∃ c : Command, c.instruction P = .ok d.instruction ∧
      c.signer ∈ d.signers ∧ c.Does d.toSurroundings.scene σ P (τ, d.log) ∧
      c.Handles d.toSurroundings.scene σ P id g d.log (σ.request? g P id) (τ.request? g P id) := by
  rcases h.cases with rfl | ⟨Q, c, made, signed, does⟩
  · exact .inl rfl
  · refine (does.handles g P id).imp_right fun handled => ?_
    obtain ⟨rfl, handles⟩ := handled
    exact ⟨c, made, signed, does, handles⟩

theorem manages (h : d.Done keys σ τ) (P : Address) (id : UInt64) :
    τ (.subscription P id) = σ (.subscription P id) ∨ ∃ c : Command, c.instruction P = .ok d.instruction ∧
      c.signer ∈ d.signers ∧ c.Manages σ P id (σ (.subscription P id)) (τ (.subscription P id)) := by
  rcases h.cases with rfl | ⟨Q, c, made, signed, does⟩
  · exact .inl rfl
  · by_cases written : Site.subscription P id ∈ c.writes Q
    · obtain ⟨rfl, manages⟩ := does.manages written
      exact .inr ⟨c, made, signed, manages⟩
    · exact .inl (does.frame written)

/-- Consumers only come and go with the signature of the subscription's owner. -/
theorem registers (h : d.Done keys σ τ) {consumer : Address}
    (changed : τ (.registration P id consumer) ≠ σ (.registration P id consumer)) :
    ∃ s, σ (.subscription P id) = some s ∧ s.owner ∈ d.signers := by
  rcases h.cases with rfl | ⟨Q, c, made, signed, does⟩
  · exact absurd rfl changed
  · obtain ⟨rfl, s, found, owner⟩ := does.registers changed
    exact ⟨s, found, owner ▸ signed⟩

end Deed.Done

/-- A deed is the execution of an operation that the history has. -/
structure Deed.Is (d : Deed) (m : Moment) : Prop where
  made : m.operation.instruction = .ok d.instruction
  slot : m.slot = d.slot
  before : m.before = d.before
  after : m.after = d.after

/-- Deeds that lead from no records at all to these. -/
inductive Led (keys : Set Address) : Registry → List Deed → Prop
  | start : Led keys Registry.empty []
  | snoc {σ τ : Registry} {D : List Deed} {d : Deed} (led : Led keys σ D) (done : d.Done keys σ τ) :
      Led keys τ (D ++ [d])

namespace Led

variable {σ τ : Registry} {D past future : List Deed} {d : Deed}

/-- The deeds before a deed have led to the records that it found. -/
theorem split (h : Led keys τ D) (order : D = past ++ d :: future) :
    ∃ σ σ', Led keys σ past ∧ d.Done keys σ σ' := by
  induction h generalizing future with
  | start => simp at order
  | @snoc σ τ D e led done ih =>
    rcases List.eq_nil_or_concat future with rfl | ⟨rest, last, rfl⟩
    · obtain ⟨rfl, same⟩ := List.append_inj' order rfl
      cases same
      exact ⟨σ, τ, led, done⟩
    · rw [List.concat_eq_append, ← List.cons_append, ← List.append_assoc] at order
      exact ih (List.append_inj' order rfl).1

theorem done_of_mem (h : Led keys τ D) (hd : d ∈ D) : ∃ σ σ', d.Done keys σ σ' := by
  obtain ⟨past, future, order⟩ := List.append_of_mem hd
  obtain ⟨σ, σ', _, done⟩ := h.split order
  exact ⟨σ, σ', done⟩

end Led

/-- Accounts at a slot with the records behind them, and the deeds that led to these. -/
structure Descent (keys : Set Address) (s : Accounts) (σ : Registry) (slot : UInt64) (D : List Deed) : Prop where
  backed : Backed keys s σ slot
  led : Led keys σ D

namespace Descent

variable {s s' : Accounts} {σ τ : Registry} {slot slot' : UInt64} {D : List Deed}

theorem step {x : Surroundings} {o : Operation} {i : Instruction} {log : List LogEntry}
    (h : Descent keys s σ x.slot D) (fits : Fits keys s' τ) (inside : o.Over keys)
    (made : o.instruction = .ok i) (stepped : o.step x.scene σ = some (τ, log)) :
    Descent keys s' τ x.slot (D ++ [⟨x, i, s, s', log⟩]) where
  backed := h.backed.step fits stepped
  led := h.led.snoc ⟨h.backed, h.backed.step fits stepped, o, inside, made, stepped⟩

theorem later (h : Descent keys s σ slot D) (le : slot.toNat ≤ slot'.toNat) : Descent keys s σ slot' D :=
  { h with backed := h.backed.later le }

end Descent

namespace Ledger

/-- The deeds have led to the records behind a ledger. -/
def Reached (keys : Set Address) (l : Ledger) (D : List Deed) : Prop :=
  ∃ σ, Descent keys l.accounts σ l.slot D

/-- What was executed, by instructions, is what the history says, by operations. -/
theorem annals_history (distinct : DistinctAddresses keys) (ts : List Submission)
    (inside : ∀ t ∈ ts, t.Over keys) : List.Forall₂ Deed.Is (fresh.annals ts) (history ts).2 := by
  obtain ⟨_, _, same⟩ := annals_induction (C := fun _ _ _ H D => List.Forall₂ Deed.Is D H)
    (fun _ _ _ _ _ _ _ _ _ _ same _ _ _ made _ => List.rel_append same (.cons ⟨made, rfl, rfl, rfl⟩ .nil))
    (fun _ _ _ _ _ _ _ same => same) distinct .nil ts inside
  exact same

/-- All that was executed has led to the ledger. -/
theorem reached (distinct : DistinctAddresses keys) (ts : List Submission) (inside : ∀ t ∈ ts, t.Over keys) :
    (history ts).1.Reached keys (fresh.annals ts) := by
  obtain ⟨σ, _, after⟩ := annals_induction (C := fun s σ slot _ D => Descent keys s σ slot D)
    (fun _ _ _ _ _ _ _ _ _ _ h _ fits inside made stepped => h.step fits inside made stepped)
    (fun _ _ _ _ _ _ le h => h.later le) distinct ⟨.empty distinct, .start⟩ ts inside
  exact ⟨σ, after⟩

namespace Reached

variable {l l' : Ledger} {D : List Deed}

theorem transact (h : l.Reached keys D) {t : Submission} (inside : t.Over keys) :
    (l.after t).1.Reached keys (D ++ l.deeds t) := by
  obtain ⟨σ, descent⟩ := h
  obtain ⟨τ, _, after⟩ := transact_induction (C := fun s σ slot _ D => Descent keys s σ slot D) (H := [])
    (fun _ _ _ _ _ _ _ _ _ _ h _ fits inside made stepped => h.step fits inside made stepped)
    (fun _ _ _ _ _ _ le h => h.later le) inside descent.backed.fits descent
  exact ⟨τ, after⟩

theorem submit (h : l.Reached keys D) {os : List Operation} {is : List Instruction} {signers : List Address}
    {e : Execution} (inside : ∀ o ∈ os, o.Over keys) (made : os.mapM Operation.instruction = .ok is)
    (submitted : l.submit is signers = .ok (l', e)) : l'.Reached keys (D ++ l.executed is signers) := by
  obtain ⟨σ, descent⟩ := h
  obtain ⟨τ, _, after⟩ := submit_induction (C := fun s σ slot _ D => Descent keys s σ slot D) (H := [])
    (fun _ _ _ _ _ _ _ _ _ _ h _ fits inside made stepped => h.step fits inside made stepped)
    (fun _ _ _ _ _ _ le h => h.later le) inside made submitted descent.backed.fits descent
  exact ⟨τ, after⟩

end Reached

end Ledger

end Randomness
