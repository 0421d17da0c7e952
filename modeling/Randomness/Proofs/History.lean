import Randomness.Ledger
import Randomness.Proofs.Execution
import Randomness.Proofs.Transition

/-!
What happens on a ledger: the operations that were executed, transaction by transaction, with the accounts
before and after each of them; and the same by instructions, with their transactions and what they logged.
-/

namespace Randomness

/-- The records that can be read from accounts, each at the address of its site. -/
def Accounts.records [Crypto] (s : Accounts) : Registry := fun t =>
  match t.address with
  | .ok (a, _) => (s.get? a).bind fun data => (t.kind.decode data).toOption
  | .error _ => none

theorem Accounts.records_eq [Crypto] {s : Accounts} {t : Site} {a : Address} {b : UInt8}
    (ha : t.address = .ok (a, b)) :
    s.records t = (s.get? a).bind fun data => (t.kind.decode data).toOption := by
  simp only [records, ha]

/-- The records of a registry can all be read. -/
def Registry.Legible (σ : Registry) : Prop := ∀ t r, σ t = some r → t.kind.Legible r

theorem Fits.records_eq [Crypto] {keys : Set Address} {s : Accounts} {σ : Registry} (hf : Fits keys s σ)
    (legible : σ.Legible) {t : Site} (ht : t.Over keys) : s.records t = σ t := by
  unfold Accounts.records
  cases ha : t.address with
  | ok found =>
    obtain ⟨a, b⟩ := found
    simp only [hf.get?_eq ht ha]
    cases hr : σ t with
    | none => rfl
    | some r =>
      simp only [Option.map_some, Option.bind_some, Kind.decode_encode _ r (legible t r hr)]
      rfl
  | error e => exact (hf.vacant ha).symm

/-- An operation that was executed in the transaction of a slot. -/
structure Moment where
  operation : Operation
  slot : UInt64
  before : Accounts
  after : Accounts

/-- An instruction that was executed, in the surroundings of its transaction, and what it logged. -/
structure Deed extends Surroundings where
  instruction : Instruction
  before : Accounts
  after : Accounts
  log : List LogEntry

theorem forall_mem_snoc {p : α → Prop} {l : List α} {a : α} (h : ∀ b ∈ l, p b) (last : p a) :
    ∀ b ∈ l ++ [a], p b :=
  List.forall_mem_append.2 ⟨h, List.forall_mem_singleton.2 last⟩

theorem pairwise_snoc {R : α → α → Prop} {l : List α} {a : α} (h : l.Pairwise R) (last : ∀ b ∈ l, R b a) :
    (l ++ [a]).Pairwise R :=
  List.pairwise_append.2 ⟨h, List.pairwise_singleton .., fun b hb => List.forall_mem_singleton.2 (last b hb)⟩

theorem mapError_eq_ok {x : Except ε α} {f : ε → ε'} {a : α} : x.mapError f = .ok a ↔ x = .ok a := by
  cases x <;> simp [Except.mapError]

variable [Crypto]

/-- Operations in order, as far as they are executed. -/
def moments (x : Surroundings) (s : Accounts) : List Operation → List Moment
  | [] => []
  | o :: os => match o.instruction with
    | .error _ => []
    | .ok i => match Coordinator.execute x i s with
      | .error _ => []
      | .ok e => ⟨o, x.slot, s, e.accounts⟩ :: moments x e.accounts os

/-- Instructions in order, as far as they are executed. -/
def Surroundings.deeds (x : Surroundings) (s : Accounts) : List Instruction → List Deed
  | [] => []
  | i :: is => match Coordinator.execute x i s with
    | .error _ => []
    | .ok e => ⟨x, i, s, e.accounts, e.log⟩ :: x.deeds e.accounts is

namespace Ledger

/-- The ledger after a transaction, and what was executed. What cannot be built is not submitted; what is
refused or runs over leaves no trace. -/
def after (l : Ledger) (t : Submission) : Ledger × List Moment :=
  match t.instructions with
  | .error _ => (l, [])
  | .ok is => match l.submit is t.signers with
    | .error _ => (l, [])
    | .ok (l', e) => (l', moments ⟨e.slot, is, t.signers⟩ l.accounts t.operations)

/-- A fresh ledger after transactions, and all that was executed. -/
def history (ts : List Submission) : Ledger × List Moment :=
  ts.foldl (fun (l, H) t => ((l.after t).1, H ++ (l.after t).2)) (fresh, [])

/-- Later transactions only add to what was executed. -/
theorem history_grows (ts us : List Submission) : (history ts).2 <+: (history (ts ++ us)).2 := by
  rw [history, history, List.foldl_append]
  generalize ts.foldl _ (fresh, []) = r
  induction us generalizing r with
  | nil => exact List.prefix_rfl
  | cons u us ih => exact (List.prefix_append r.2 (r.1.after u).2).trans (ih ((r.1.after u).1, _))

/-- What a transaction executes, if it is accepted. -/
def executed (l : Ledger) (is : List Instruction) (signers : List Address) : List Deed :=
  match l.submit is signers with
  | .error _ => []
  | .ok (_, e) => Surroundings.deeds ⟨e.slot, is, signers⟩ l.accounts is

def deeds (l : Ledger) (t : Submission) : List Deed :=
  match t.instructions with
  | .error _ => []
  | .ok is => l.executed is t.signers

/-- What transactions execute, one after the other. -/
def annals (l : Ledger) : List Submission → List Deed
  | [] => []
  | t :: ts => l.deeds t ++ (l.after t).1.annals ts

end Ledger

namespace Ledger

theorem submit_eq_ok {l l' : Ledger} {is : List Instruction} {signers : List Address} {e : Execution} :
    l.submit is signers = .ok (l', e) ↔
      ∃ slot effect transactions, Coordinator.next64 l.slot = .ok slot ∧
        executeFrom ⟨slot, is, signers⟩ 0 l.accounts is = .ok effect ∧
        Coordinator.next64 l.transactions = .ok transactions ∧ l' = ⟨effect.accounts, slot, transactions⟩ ∧
        e = ⟨signatureOf transactions, slot, effect.log.map LogEntry.text⟩ := by
  simp only [submit, bind_eq_ok, mapError_eq_ok, pure_eq_ok, Prod.mk.injEq]
  constructor
  · intro held
    obtain ⟨slot, hslot, effect, run, transactions, counted, rfl, rfl⟩ := held
    exact ⟨slot, effect, transactions, hslot, run, counted, rfl, rfl⟩
  · intro held
    obtain ⟨slot, effect, transactions, hslot, run, counted, rfl, rfl⟩ := held
    exact ⟨slot, hslot, effect, run, transactions, counted, rfl, rfl⟩

section

variable {x : Surroundings} {s : Accounts} {i : Instruction} {is : List Instruction}

theorem executeFrom_cons_of_error {f : Fault} (failed : Coordinator.execute x i s = .error f) (n : Nat) :
    executeFrom x n s (i :: is) = .error ⟨n, f⟩ := by
  rw [executeFrom, failed]
  rfl

theorem executeFrom_cons_eq_error {e : Effect} (executed : Coordinator.execute x i s = .ok e) {n : Nat}
    {g : Failure} : executeFrom x n s (i :: is) = .error g ↔ executeFrom x (n + 1) e.accounts is = .error g := by
  rw [executeFrom, executed]
  exact bind_eq_error_of_total fun rest => ⟨_, rfl⟩

end

section

variable {keys : Set Address} {C : Accounts → Registry → UInt64 → List Moment → List Deed → Prop}
  (step : ∀ x s σ H D o i τ log s', C s σ x.slot H D → Fits keys s σ → Fits keys s' τ → o.Over keys →
    o.instruction = .ok i → o.step (Surroundings.scene x) σ = some (τ, log) →
    C s' τ x.slot (H ++ [⟨o, x.slot, s, s'⟩]) (D ++ [⟨x, i, s, s', log⟩]))

include step

/-- What one operation preserves, all operations of an executed transaction preserve. -/
theorem executeFrom_induction {x : Surroundings} {n : Nat} {s : Accounts} {σ : Registry} {H : List Moment}
    {D : List Deed} {os : List Operation} {is : List Instruction} {e : Effect} (inside : ∀ o ∈ os, o.Over keys)
    (made : os.mapM Operation.instruction = .ok is) (run : executeFrom x n s is = .ok e)
    (hf : Fits keys s σ) (start : C s σ x.slot H D) :
    ∃ τ, Fits keys e.accounts τ ∧ C e.accounts τ x.slot (H ++ moments x s os) (D ++ x.deeds s is) := by
  induction os generalizing n s σ H D is e with
  | nil =>
    cases made
    cases run
    exact ⟨σ, hf, by simpa [moments, Surroundings.deeds] using start⟩
  | cons o os ih =>
    obtain ⟨i, is, hi, rest, rfl⟩ := Submission.instructions_cons_eq_ok.1 made
    simp only [executeFrom, bind_eq_ok, mapError_eq_ok, pure_eq_ok] at run
    obtain ⟨first, executed, others, run, rfl⟩ := run
    have own := inside o List.mem_cons_self
    obtain ⟨τ, stepped, fits⟩ := Operation.stepped_of_executed hf own hi executed
    have next := step x s σ H D o i τ first.log first.accounts start hf fits own hi stepped
    obtain ⟨υ, fits', after⟩ := ih (fun p hp => inside p (List.mem_cons_of_mem o hp)) rest run fits next
    refine ⟨υ, fits', ?_⟩
    simpa only [moments, Surroundings.deeds, hi, executed, List.append_assoc, List.singleton_append] using after

variable (later : ∀ s σ slot slot' H D, slot.toNat ≤ slot'.toNat → C s σ slot H D → C s σ slot' H D)

include later

theorem submit_induction {l l' : Ledger} {σ : Registry} {H : List Moment} {D : List Deed} {os : List Operation}
    {is : List Instruction} {signers : List Address} {e : Execution} (inside : ∀ o ∈ os, o.Over keys)
    (made : os.mapM Operation.instruction = .ok is) (submitted : l.submit is signers = .ok (l', e))
    (hf : Fits keys l.accounts σ) (start : C l.accounts σ l.slot H D) :
    ∃ τ, Fits keys l'.accounts τ ∧ C l'.accounts τ l'.slot
      (H ++ moments ⟨e.slot, is, signers⟩ l.accounts os) (D ++ l.executed is signers) := by
  simp only [executed, submitted]
  obtain ⟨slot, effect, transactions, hslot, run, _, rfl, rfl⟩ := submit_eq_ok.1 submitted
  have larger : l.slot.toNat ≤ slot.toNat := by
    rw [Coordinator.next64_eq_ok hslot]
    omega
  exact executeFrom_induction step inside made run hf (later _ _ _ _ _ _ larger start)

theorem transact_induction {l : Ledger} {σ : Registry} {H : List Moment} {D : List Deed} {t : Submission}
    (inside : t.Over keys) (hf : Fits keys l.accounts σ) (start : C l.accounts σ l.slot H D) :
    ∃ τ, Fits keys (l.after t).1.accounts τ ∧
      C (l.after t).1.accounts τ (l.after t).1.slot (H ++ (l.after t).2) (D ++ l.deeds t) := by
  have idle : ∃ τ, Fits keys l.accounts τ ∧ C l.accounts τ l.slot (H ++ []) (D ++ []) :=
    ⟨σ, hf, by simpa using start⟩
  cases made : t.instructions with
  | error e => simpa only [after, deeds, made] using idle
  | ok is =>
    cases submitted : l.submit is t.signers with
    | error e => simpa only [after, deeds, executed, made, submitted] using idle
    | ok r =>
      simp only [after, deeds, made, submitted]
      exact submit_induction step later inside made submitted hf start

/-- What holds at first, and is preserved by time and by every operation that is executed, holds after all
transactions. -/
theorem annals_induction (distinct : DistinctAddresses keys)
    (start : C Accounts.empty Registry.empty fresh.slot [] []) (ts : List Submission)
    (inside : ∀ t ∈ ts, t.Over keys) :
    ∃ σ, Fits keys (history ts).1.accounts σ ∧
      C (history ts).1.accounts σ (history ts).1.slot (history ts).2 (fresh.annals ts) := by
  have none : Registry.empty.Over keys := by
    intro t r h
    cases h
  suffices from_any : ∀ (ts : List Submission) (l : Ledger) (σ : Registry) (H : List Moment) (D : List Deed),
      (∀ t ∈ ts, t.Over keys) → Fits keys l.accounts σ → C l.accounts σ l.slot H D →
      let r := ts.foldl (fun (l, H) t => ((l.after t).1, H ++ (l.after t).2)) (l, H)
      ∃ τ, Fits keys r.1.accounts τ ∧ C r.1.accounts τ r.1.slot r.2 (D ++ l.annals ts) from
    from_any ts fresh Registry.empty [] [] inside ⟨Matches.empty, distinct, none⟩ start
  intro ts
  induction ts with
  | nil => exact fun l σ H D _ hf start => ⟨σ, hf, by simpa [annals] using start⟩
  | cons t ts ih =>
    intro l σ H D inside hf start
    obtain ⟨τ, fits, next⟩ := transact_induction step later (inside t List.mem_cons_self) hf start
    rw [annals, ← List.append_assoc]
    exact ih _ τ _ _ (fun u hu => inside u (List.mem_cons_of_mem t hu)) fits next

end

/-! The same for operations alone. -/

section

variable {keys : Set Address} {C : Accounts → Registry → UInt64 → List Moment → Prop}
  (step : ∀ x s σ H o τ log s', C s σ x.slot H → Fits keys s σ → Fits keys s' τ → o.Over keys →
    o.step (Surroundings.scene x) σ = some (τ, log) → C s' τ x.slot (H ++ [⟨o, x.slot, s, s'⟩]))
  (later : ∀ s σ slot slot' H, slot.toNat ≤ slot'.toNat → C s σ slot H → C s σ slot' H)

include step later

theorem after_induction {l : Ledger} {σ : Registry} {H : List Moment} {t : Submission} (inside : t.Over keys)
    (hf : Fits keys l.accounts σ) (start : C l.accounts σ l.slot H) :
    ∃ τ, Fits keys (l.after t).1.accounts τ ∧
      C (l.after t).1.accounts τ (l.after t).1.slot (H ++ (l.after t).2) :=
  transact_induction (C := fun s σ slot H _ => C s σ slot H) (D := [])
    (fun x s σ H _ o _ τ log s' h hf hf' inside _ => step x s σ H o τ log s' h hf hf' inside)
    (fun s σ slot slot' H _ => later s σ slot slot' H) inside hf start

theorem history_induction (distinct : DistinctAddresses keys)
    (start : C Accounts.empty Registry.empty fresh.slot []) (ts : List Submission)
    (inside : ∀ t ∈ ts, t.Over keys) :
    ∃ σ, Fits keys (history ts).1.accounts σ ∧
      C (history ts).1.accounts σ (history ts).1.slot (history ts).2 :=
  annals_induction (C := fun s σ slot H _ => C s σ slot H)
    (fun x s σ H _ o _ τ log s' h hf hf' inside _ => step x s σ H o τ log s' h hf hf' inside)
    (fun s σ slot slot' H _ => later s σ slot slot' H) distinct start ts inside

end

end Ledger

end Randomness
