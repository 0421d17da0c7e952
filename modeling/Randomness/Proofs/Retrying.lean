import Mathlib.Algebra.Ring.Nat
import Randomness.Node
import Randomness.Proofs.Transcript

/-!
How a transaction is sent again: attempts that fail for want of the blockhash, each followed by its wait, and
then a last attempt, which decides.
-/

namespace Randomness

namespace RetryPolicy

/-- The wait before a retry in nanoseconds, after so many others: the first one is the initial delay, and from then
on it has doubled each time, up to the maximum. -/
def wait (p : RetryPolicy) : Nat → Nat
  | 0 => p.initialDelay.nanos
  | k + 1 => min (p.initialDelay.nanos * 2 ^ (k + 1)) p.maxDelay.nanos

/-- Doubling never goes wrong: a wait that would be too long to tell is above the maximum anyhow. -/
theorem nanos_nextDelay (p : RetryPolicy) (d : Delay) :
    (p.nextDelay d).nanos = min (d.nanos * 2) p.maxDelay.nanos := by
  have fits := p.maxDelay.nanos_lt
  rw [nextDelay, Delay.nanos_shorter, Delay.nanos_doubled]
  omega

theorem nanos_nextDelay_of_wait {p : RetryPolicy} {d : Delay} {k : Nat} (due : d.nanos = p.wait k) :
    (p.nextDelay d).nanos = p.wait (k + 1) := by
  rw [nanos_nextDelay, due]
  cases k with
  | zero => rfl
  | succ k =>
    have doubled : p.initialDelay.nanos * 2 ^ (k + 1 + 1) = p.initialDelay.nanos * 2 ^ (k + 1) * 2 := by
      rw [Nat.pow_succ, Nat.mul_assoc]
    simp only [wait, doubled]
    omega

end RetryPolicy

/-- The words for an error have the name of its cause in them, which is that the blockhash is not found. -/
def NodeError.Retryable (e : NodeError) : Prop := "BlockhashNotFound".toList <:+: e.message.toList

theorem NodeError.isStale_iff {e : NodeError} : e.isStale = true ↔ e.Retryable := Text.occurs_iff

namespace Node

abbrev Said := Utterance NodeQuestion NodeQuestion.Answer

def isSend : Said → Bool
  | .asked (.send _) _ => true
  | _ => false

/-- An attempt that the node answered with an error. -/
structure Failure where
  hash : Block 32
  error : NodeError

def Failure.turns (transaction : Block 32 → Transaction) (f : Failure) : List Said :=
  [.asked .blockhash (.ok f.hash), .asked (.send (transaction f.hash)) (.error f.error)]

/-- Failed attempts after so many others, each with the wait that follows it. -/
def retried (p : RetryPolicy) (transaction : Block 32 → Transaction) : Nat → List Failure → List Said
  | _, [] => []
  | made, f :: fs => f.turns transaction ++ .waited (p.wait made) :: retried p transaction (made + 1) fs

/-- The last attempt, after so many others, and what it makes of the whole. -/
inductive Ends (p : RetryPolicy) (transaction : Block 32 → Transaction) (made : Nat) :
    List Said → Except LedgerError Signature → Prop
  | unknown (e : NodeError) : Ends p transaction made [.asked .blockhash (.error e)] (.error (.node e))
  | executed (hash : Block 32) (s : Signature) : Ends p transaction made
      [.asked .blockhash (.ok hash), .asked (.send (transaction hash)) (.ok s)] (.ok s)
  | failed (f : Failure) (last : f.error.Retryable → made = p.maxRetries) :
      Ends p transaction made (f.turns transaction) (.error (.node f.error))

variable {p : RetryPolicy} {transaction : Block 32 → Transaction} {made left : Nat} {delay : Delay} {log : List Said}
  {r : Except LedgerError Signature}

theorem run_sendFrom : (sendFrom p transaction made delay (left + 1)).run = .ask .blockhash fun r => match r with
    | .error e => .done (.error (.node e))
    | .ok hash => .ask (.send (transaction hash)) fun r => match r with
      | .ok s => .done (.ok s)
      | .error e => if e.isStale ∧ made < p.maxRetries then
          .pause delay.nanos (sendFrom p transaction (made + 1) (p.nextDelay delay) left).run
        else .done (.error (.node e)) := by
  rw [sendFrom]
  change Dialogue.ask _ _ = _
  congr 1
  funext r
  cases r with
  | error e => rfl
  | ok hash =>
    change Dialogue.ask _ _ = _
    congr 1
    funext r
    cases r with
    | ok s => rfl
    | error e =>
      change (ite _ _ _ : NodeM Signature).run = ite _ _ _
      by_cases again : e.isStale ∧ made < p.maxRetries
      · rw [if_pos again, if_pos again]
        rfl
      · rw [if_neg again, if_neg again]
        rfl

/-- One attempt: it is the last one, or it fails for want of the blockhash and the next one follows. -/
theorem goes_attempt_iff (within : made ≤ p.maxRetries) :
    (sendFrom p transaction made delay (left + 1)).run.Goes log r ↔ Ends p transaction made log r ∨
      ∃ (f : Failure) (rest : List Said), f.error.Retryable ∧ made < p.maxRetries ∧
        log = f.turns transaction ++ .waited delay.nanos :: rest ∧
        (sendFrom p transaction (made + 1) (p.nextDelay delay) left).run.Goes rest r := by
  rw [run_sendFrom]
  constructor
  · intro goes
    obtain ⟨hash, afterHash, rfl, told⟩ := Dialogue.goes_ask_iff.1 goes
    cases hash with
    | error e =>
      obtain ⟨rfl, rfl⟩ := Dialogue.goes_done_iff.1 told
      exact .inl (.unknown e)
    | ok hash =>
      obtain ⟨answer, afterSend, rfl, sent⟩ := Dialogue.goes_ask_iff.1 told
      cases answer with
      | ok s =>
        obtain ⟨rfl, rfl⟩ := Dialogue.goes_done_iff.1 sent
        exact .inl (.executed hash s)
      | error e =>
        by_cases again : e.isStale ∧ made < p.maxRetries
        · simp only [if_pos again] at sent
          obtain ⟨rest, rfl, onward⟩ := Dialogue.goes_pause_iff.1 sent
          exact .inr ⟨⟨hash, e⟩, rest, NodeError.isStale_iff.1 again.1, again.2, rfl, onward⟩
        · simp only [if_neg again] at sent
          obtain ⟨rfl, rfl⟩ := Dialogue.goes_done_iff.1 sent
          have last (named : e.Retryable) : made = p.maxRetries := by
            have exhausted : ¬ made < p.maxRetries := fun less => again ⟨NodeError.isStale_iff.2 named, less⟩
            omega
          exact .inl (.failed ⟨hash, e⟩ last)
  · intro h
    rcases h with ends | ⟨f, rest, named, less, rfl, goes⟩
    · cases ends with
      | unknown e => exact .ask (.done _)
      | executed hash s => exact .ask (.ask (.done _))
      | failed f last =>
        refine Dialogue.Goes.ask (Dialogue.Goes.ask ?_)
        have final : ¬ (f.error.isStale ∧ made < p.maxRetries) := by
          intro again
          have full := last (NodeError.isStale_iff.1 again.1)
          omega
        simp only [if_neg final]
        exact .done _
    · refine Dialogue.Goes.ask (Dialogue.Goes.ask ?_)
      simp only [if_pos (And.intro (NodeError.isStale_iff.2 named) less)]
      exact .pause goes

/-- The attempts that are left: some fail for want of the blockhash, and then one is the last. -/
theorem goes_sendFrom_iff (due : delay.nanos = p.wait made) (left_eq : made + left = p.maxRetries) :
    (sendFrom p transaction made delay (left + 1)).run.Goes log r ↔
      ∃ fs last, fs.length ≤ left ∧ (∀ f ∈ fs, f.error.Retryable) ∧
        log = retried p transaction made fs ++ last ∧ Ends p transaction (made + fs.length) last r := by
  induction left generalizing made delay log with
  | zero =>
    rw [goes_attempt_iff (by omega)]
    constructor
    · intro h
      rcases h with ends | ⟨f, rest, named, less, -⟩
      · exact ⟨[], log, Nat.le_refl 0, by simp, rfl, ends⟩
      · omega
    · intro h
      obtain ⟨fs, last, none, -, rfl, ends⟩ := h
      obtain rfl := List.length_eq_zero_iff.1 (Nat.le_zero.1 none)
      exact .inl ends
  | succ left ih =>
    have next := @ih (made + 1) (p.nextDelay delay)
    have due' : (p.nextDelay delay).nanos = p.wait (made + 1) := RetryPolicy.nanos_nextDelay_of_wait due
    rw [goes_attempt_iff (by omega)]
    constructor
    · intro h
      rcases h with ends | ⟨f, rest, named, less, rfl, goes⟩
      · exact ⟨[], log, Nat.zero_le _, by simp, rfl, ends⟩
      · obtain ⟨fs, last, few, all, rfl, ends⟩ := (next due' (by omega)).1 goes
        refine ⟨f :: fs, last, Nat.succ_le_succ few, List.forall_mem_cons.2 ⟨named, all⟩, ?_, ?_⟩
        · rw [retried, List.append_assoc, List.cons_append, due]
        · rwa [List.length_cons, Nat.add_comm fs.length, ← Nat.add_assoc]
    · intro h
      obtain ⟨fs, last, few, all, rfl, ends⟩ := h
      cases fs with
      | nil => exact .inl ends
      | cons f fs =>
        obtain ⟨named, all⟩ := List.forall_mem_cons.1 all
        refine .inr ⟨f, retried p transaction (made + 1) fs ++ last, named, by omega, ?_, ?_⟩
        · rw [retried, List.append_assoc, List.cons_append, due]
        · refine (next due' (by omega)).2 ⟨fs, last, Nat.le_of_succ_le_succ few, all, rfl, ?_⟩
          rwa [List.length_cons, Nat.add_comm fs.length, ← Nat.add_assoc] at ends

section

variable {is : List Instruction} {signers : List Address} {fs : List Failure}

theorem run_sendWithRetries_nil :
    (sendWithRetries p is []).run = .done (.error (.custom "no fee payer supplied")) := rfl

theorem run_sendWithRetries (paid : signers ≠ []) : (sendWithRetries p is signers).run =
    (sendFrom p (⟨is, signers, ·⟩) 0 p.initialDelay (p.maxRetries + 1)).run := by
  have payer : signers.isEmpty = false := List.isEmpty_eq_false_iff.2 paid
  rw [sendWithRetries, payer]
  rfl

theorem goes_sendWithRetries_iff : (sendWithRetries p is signers).run.Goes log r ↔
      (signers = [] ∧ log = [] ∧ r = .error (.custom "no fee payer supplied")) ∨
      (signers ≠ [] ∧ ∃ fs last, fs.length ≤ p.maxRetries ∧ (∀ f ∈ fs, f.error.Retryable) ∧
        log = retried p (⟨is, signers, ·⟩) 0 fs ++ last ∧ Ends p (⟨is, signers, ·⟩) fs.length last r) := by
  by_cases paid : signers = []
  · subst paid
    rw [run_sendWithRetries_nil, Dialogue.goes_done_iff]
    simp
  · have all : (sendFrom p (⟨is, signers, ·⟩) 0 p.initialDelay (p.maxRetries + 1)).run.Goes log r ↔ _ :=
      goes_sendFrom_iff rfl (Nat.zero_add p.maxRetries)
    simp only [Nat.zero_add] at all
    rw [run_sendWithRetries paid, all]
    simp [paid]

theorem countP_isSend_retried : (retried p transaction made fs).countP isSend = fs.length := by
  induction fs generalizing made with
  | nil => rfl
  | cons f fs ih =>
    rw [retried, List.countP_append, List.countP_cons_of_neg (by simp [isSend]), ih, List.length_cons, Nat.add_comm]
    rfl

theorem Ends.countP_isSend_le (h : Ends p transaction made log r) : log.countP isSend ≤ 1 := by
  cases h <;> simp [isSend, Failure.turns, List.countP_cons]

/-- The loop never runs out of attempts without an error to return. -/
theorem Ends.ne_custom (h : Ends p transaction made log r) (text : String) : r ≠ .error (.custom text) := by
  cases h <;> simp

/-- A transaction is sent at most once more often than it may be retried. It is sent again after each failure
whose words name the blockhash, with the waits of the policy in between; the first other answer is returned, and so is
the failure of the last attempt, whatever it names. Without a payer the node is asked nothing. -/
theorem retries_as_configured (p : RetryPolicy) (is : List Instruction) (signers : List Address) (log : List Said)
    (r : Except LedgerError Signature) :
    ((sendWithRetries p is signers).run.Goes log r ↔
      (signers = [] ∧ log = [] ∧ r = .error (.custom "no fee payer supplied")) ∨
      (signers ≠ [] ∧ ∃ fs last, fs.length ≤ p.maxRetries ∧ (∀ f ∈ fs, f.error.Retryable) ∧
        log = retried p (⟨is, signers, ·⟩) 0 fs ++ last ∧ Ends p (⟨is, signers, ·⟩) fs.length last r)) ∧
    ((sendWithRetries p is signers).run.Goes log r →
      log.countP isSend ≤ p.maxRetries + 1 ∧
      r ≠ .error (.custom ("max retries (" ++ toString p.maxRetries ++ ") exceeded"))) := by
  have exact_form : (sendWithRetries p is signers).run.Goes log r ↔ _ := goes_sendWithRetries_iff
  refine ⟨exact_form, fun goes => ?_⟩
  rcases exact_form.1 goes with ⟨-, rfl, rfl⟩ | ⟨-, fs, last, few, -, rfl, ends⟩
  · refine ⟨Nat.zero_le _, fun same => ?_⟩
    have texts : "no fee payer supplied" = "max retries (" ++ toString p.maxRetries ++ ") exceeded" := by
      simpa using same
    have letters := congrArg (fun s => s.toList.head?) texts
    simp at letters
  · refine ⟨?_, ends.ne_custom _⟩
    rw [List.countP_append, countP_isSend_retried]
    exact Nat.add_le_add few ends.countP_isSend_le

end

end Node

namespace Recorded

/-- A failure that names the blockhash in the word that is looked for. -/
def named : Node.Failure := ⟨Block.zero 32, .explained "BlockhashNotFound"⟩

def fresh : Block 32 := ⟨List.replicate 32 1, rfl⟩

/-- The second attempt follows half a second later. -/
theorem named_retried :
    let log : List Node.Said := [.asked .blockhash (.ok named.hash),
      .asked (.send ⟨[], [Address.zero], named.hash⟩) (.error named.error), .waited 500000000,
      .asked .blockhash (.ok fresh), .asked (.send ⟨[], [Address.zero], fresh⟩) (.ok (Block.zero 64))]
    (Node.sendWithRetries .standard [] [Address.zero]).run.Goes log (.ok (Block.zero 64)) ∧
    log.countP Node.isSend ≤ 6 := by
  intro log
  have retryable : ∀ f ∈ [named], f.error.Retryable := by
    intro f mem
    rw [List.mem_singleton.1 mem]
    exact NodeError.isStale_iff.1 (by decide)
  obtain ⟨exact_form, bounded⟩ := Node.retries_as_configured .standard [] [Address.zero] log (.ok (Block.zero 64))
  have goes : (Node.sendWithRetries .standard [] [Address.zero]).run.Goes log (.ok (Block.zero 64)) := by
    apply exact_form.2
    exact .inr ⟨by simp, [named], _, by decide, retryable, rfl, .executed fresh (Block.zero 64)⟩
  exact ⟨goes, (bounded goes).1⟩

end Recorded

end Randomness
