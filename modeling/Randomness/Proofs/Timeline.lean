import Mathlib.Data.List.Perm.Basic
import Randomness.Proofs.Polling
import Randomness.Proofs.Site

/-!
Conversations with a service whose answers depend on the time alone. Conversations side by side are told what
each of them would be told alone, at the same times.
-/

namespace Randomness

/-- What a service answers at each time, whoever asks. -/
abbrev Timeline (Q : Type) (A : Q → Type) := Nat → (q : Q) → A q

/-- A conversation from its start to its end. -/
structure Performance (Q α : Type) where
  outcome : α
  /-- The questions, with their times. -/
  asked : List (Nat × Q)
  finish : Nat

namespace Timeline

variable {Q : Type} {A : Q → Type} {α β γ : Type} (T : Timeline Q A)

/-- A conversation that starts at a time. -/
def play : Dialogue Q A α → Nat → Performance Q α
  | .done a, now => ⟨a, [], now⟩
  | .ask q next, now =>
    let rest := play (next (T now q)) now
    { rest with asked := (now, q) :: rest.asked }
  | .pause ms next, now => play next (now + ms)

/-- It is the conversation's run with a clock. -/
theorem run_eq_play (d : Dialogue Q A α) (now : Nat) :
    d.run (m := StateM Nat) (fun q now => (T now q, now)) (fun ms now => ((), now + ms)) now =
      ((T.play d now).outcome, (T.play d now).finish) := by
  induction d generalizing now with
  | done a => rfl
  | ask q next ih => exact ih (T now q) now
  | pause ms next ih => exact ih (now + ms)

theorem le_finish (d : Dialogue Q A α) (now : Nat) : now ≤ (T.play d now).finish := by
  induction d generalizing now with
  | done a => exact Nat.le_refl now
  | ask q next ih => exact ih (T now q) now
  | pause ms next ih => exact Nat.le_trans (Nat.le_add_right now ms) (ih (now + ms))

theorem play_map (f : α → β) (d : Dialogue Q A α) (now : Nat) :
    T.play (d.map f) now = { T.play d now with outcome := f (T.play d now).outcome } := by
  induction d generalizing now with
  | done a => rfl
  | ask q next ih => simp only [Dialogue.map, play, ih]
  | pause ms next ih => simp only [Dialogue.map, play, ih]

/-- What two performances are together. -/
structure Joins (c : Performance Q α) (d : Performance Q β) (both : Performance Q (α × β)) : Prop where
  outcome : both.outcome = (c.outcome, d.outcome)
  asked : both.asked.Perm (c.asked ++ d.asked)
  finish : both.finish = max c.finish d.finish

variable {T}

/-- The second conversation goes on while the first one rests. -/
theorem joins_during {p : Dialogue Q A α} (h : ∀ (d : Dialogue Q A β) now,
    Joins (T.play p now) (T.play d now) (T.play (p.both d) now)) (ms : Nat) (d : Dialogue Q A β) (now : Nat) :
    Joins (T.play p (now + ms)) (T.play d now) (T.play (d.during ms p.both) now) := by
  induction d generalizing ms now with
  | done b =>
    obtain ⟨outcome, asked, finish⟩ := h (.done b) (now + ms)
    refine ⟨outcome, asked, finish.trans ?_⟩
    have later := T.le_finish p (now + ms)
    simp only [play]
    omega
  | ask q next ih =>
    obtain ⟨outcome, asked, finish⟩ := ih (T now q) ms now
    exact ⟨outcome, (asked.cons (now, q)).trans List.perm_middle.symm, finish⟩
  | pause n d ih =>
    rw [Dialogue.during]
    split
    · next same =>
      subst same
      exact h d (now + ms)
    split
    · next first =>
      have rest := h (.pause (n - ms) d) (now + ms)
      have same : now + ms + (n - ms) = now + n := by omega
      rw [play, same] at rest
      exact rest
    · next first =>
      have rest := ih (ms - n) (now + n)
      have same : now + n + (ms - n) = now + ms := by omega
      rw [same] at rest
      exact rest

theorem joins_both (p : Dialogue Q A α) (d : Dialogue Q A β) (now : Nat) :
    Joins (T.play p now) (T.play d now) (T.play (p.both d) now) := by
  induction p generalizing d now with
  | done a =>
    rw [Dialogue.both, play_map]
    exact ⟨rfl, .refl _, (Nat.max_eq_right (T.le_finish d now)).symm⟩
  | ask q next ih =>
    obtain ⟨outcome, asked, finish⟩ := ih (T now q) d now
    exact ⟨outcome, asked.cons (now, q), finish⟩
  | pause ms p ih => exact joins_during (fun d now => ih d now) ms d now

/-- Conversations side by side end as each of them alone, ask what they ask, and last as long as the longest. -/
theorem play_all (ds : List (Dialogue Q A α)) (now : Nat) :
    let all := T.play (Dialogue.all ds) now
    all.outcome = ds.map (fun d => (T.play d now).outcome) ∧
    all.asked.Perm (ds.flatMap fun d => (T.play d now).asked) ∧
    all.finish = (ds.map fun d => (T.play d now).finish).foldr max now := by
  induction ds with
  | nil => exact ⟨rfl, .refl _, rfl⟩
  | cons d ds ih =>
    obtain ⟨outcomes, asked, finish⟩ := ih
    obtain ⟨both, questions, last⟩ := joins_both (T := T) d (Dialogue.all ds) now
    rw [Dialogue.all, play_map]
    refine ⟨?_, questions.trans (asked.append_left _), ?_⟩
    · simp only [both, outcomes, List.map_cons]
    · simp only [last, finish, List.map_cons, List.foldr_cons]

end Timeline

namespace Waiter

variable {T : Timeline LedgerRequest LedgerRequest.Answer} {w : Waiter} {id : UInt64} {e n : Nat}

/-- What a wait that runs out of time tells is how long it has lasted and how often it has polled. -/
structure Reports (w : Waiter) (id : UInt64) (e n : Nat) (start attempts : Nat)
    (p : Performance LedgerRequest (Except ClientError WaitOutcome)) : Prop where
  id_eq : id = w.handle.requestId
  elapsed : p.finish = start + e
  attempts : attempts + p.asked.length = n

theorem reports_found {start elapsed attempts : Nat} {s : RequestHandle} (answer : Option Bytes)
    (onward : ∀ s', (T.play (w.onward s' elapsed attempts) (start + elapsed)).outcome =
        .error (.timeout id e n) →
      w.Reports id e n start (attempts + 1) (T.play (w.onward s' elapsed attempts) (start + elapsed)))
    (h : (T.play (w.found s elapsed attempts answer) (start + elapsed)).outcome = .error (.timeout id e n)) :
    w.Reports id e n start (attempts + 1) (T.play (w.found s elapsed attempts answer) (start + elapsed)) := by
  unfold found at h ⊢
  split at h
  · split at h
    · cases h
    · split at h
      · next r read pending =>
        simp only [pending, if_true]
        exact onward _ h
      · cases h
  · split at h
    · split at h <;> cases h
    · next unseen =>
      simp only [unseen]
      exact onward _ h

/-- The time that is left decreases with every poll. -/
theorem reports_remaining {start elapsed attempts : Nat} {s : RequestHandle}
    (h : (T.play (w.remaining s elapsed attempts) (start + elapsed)).outcome = .error (.timeout id e n)) :
    w.Reports id e n start attempts (T.play (w.remaining s elapsed attempts) (start + elapsed)) := by
  induction left : w.timeout - elapsed using Nat.strongRecOn generalizing s elapsed attempts with
  | ind left ih =>
    have onward : ∀ s', (T.play (w.onward s' elapsed attempts) (start + elapsed)).outcome =
          .error (.timeout id e n) →
        w.Reports id e n start (attempts + 1) (T.play (w.onward s' elapsed attempts) (start + elapsed)) := by
      intro s' h
      rw [Waiter.onward] at h ⊢
      split at h
      · next up =>
        cases h
        rw [if_pos up]
        exact ⟨rfl, rfl, rfl⟩
      · next early =>
        rw [if_neg early]
        have later : start + elapsed + Wait.step w.timeout w.interval elapsed =
          start + (elapsed + Wait.step w.timeout w.interval elapsed) := Nat.add_assoc ..
        rw [Timeline.play, later] at h ⊢
        refine ih _ ?_ h rfl
        unfold Wait.step
        omega
    rw [remaining_eq] at h ⊢
    rw [Timeline.play] at h ⊢
    cases answer : T (start + elapsed) (.account s.address) with
    | error failure =>
      rw [answer] at h
      cases h
    | ok data =>
      rw [answer] at h
      obtain ⟨id_eq, finish, polls⟩ := reports_found data onward h
      refine ⟨id_eq, finish, ?_⟩
      simp only [List.length_cons]
      omega

theorem reports_start {start : Nat} (h : (T.play w.start start).outcome = .error (.timeout id e n)) :
    w.Reports id e n start 0 (T.play w.start start) :=
  @reports_remaining T w id e n start 0 0 w.handle h

end Waiter

namespace Client

variable (T : Timeline LedgerRequest LedgerRequest.Answer)

/-- Waits that start together poll the same accounts at the same times as each of them alone, with the same
results, whichever others there are and in whatever order. -/
theorem waits_alone (hs : List RequestHandle) (timeout interval now : Nat) :
    let alone := fun h => T.play (wait h timeout interval).run now
    let joint := fun hs => T.play (waitAll hs timeout interval) now
    (joint hs).outcome = hs.map (fun h => (alone h).outcome) ∧
    (joint hs).asked.Perm (hs.flatMap fun h => (alone h).asked) ∧
    (joint hs).finish = (hs.map fun h => (alone h).finish).foldr max now ∧
    (∀ h ∈ hs, ∀ id e n, (alone h).outcome = .error (.timeout id e n) →
      id = h.requestId ∧ (alone h).finish = now + e ∧ (alone h).asked.length = n) ∧
    ∀ (hs' : List RequestHandle) (i j : Nat), hs[i]? = hs'[j]? →
      (joint hs).outcome[i]? = (joint hs').outcome[j]? := by
  intro alone joint
  have each : ∀ hs, (joint hs).outcome = hs.map (fun h => (alone h).outcome) ∧
      (joint hs).asked.Perm (hs.flatMap fun h => (alone h).asked) ∧
      (joint hs).finish = (hs.map fun h => (alone h).finish).foldr max now := by
    intro hs
    have all := T.play_all (hs.map fun h => (wait h timeout interval).run) now
    simp only [List.map_map, List.flatMap_map, Function.comp_def] at all
    exact all
  obtain ⟨outcomes, asked, finish⟩ := each hs
  refine ⟨outcomes, asked, finish, ?_, ?_⟩
  · intro h _ id e n late
    obtain ⟨id_eq, elapsed, polls⟩ :=
      Waiter.reports_start (T := T) (w := ⟨⟨h.address, .legacy none⟩, h, timeout, interval⟩) late
    exact ⟨id_eq, elapsed, (Nat.zero_add _).symm.trans polls⟩
  · intro hs' i j same
    rw [outcomes, (each hs').1, List.getElem?_map, List.getElem?_map, same]

end Client

namespace Recorded

/-- A request that is open from 10 to 25 milliseconds, and nothing else. -/
def brief : Timeline LedgerRequest LedgerRequest.Answer
  | now, .account a => .ok (if a = consumer ∧ 10 ≤ now ∧ now < 25 then some (Kind.wordsRequest.encode
      { requestId := 0, subscriptionId := 0, consumerProgram := consumer, requester := consumer, numWords := 2
        seed := Block.zero 32, requestSlot := 102, callbackComputeLimit := 200000, status := .pending
        randomness := Block.zero 32, fulfilledSlot := 0, numCallbackAccounts := 0
        callbackAccounts := .replicate 4 Address.zero, callbackWritableBitmap := 0, bump := 255 }) else none)
  | _, .submit _ _ => .error (.custom "read only")

/-- A handle whose request closes during the wait, and one whose request is never made. -/
def closing : RequestHandle := ⟨0, consumer, .subscription, false, none⟩

def missing : RequestHandle := ⟨1, program, .subscription, false, none⟩

theorem brief_alone : (brief.play (Client.wait closing 40 15).run 0).outcome = .ok (.closedAfterCallback 0) ∧
    (brief.play (Client.wait missing 40 15).run 0).outcome = .error (.timeout 1 40 4) := by decide +kernel

theorem brief_apart :
    (brief.play (Client.waitAll [missing, closing, missing] 40 15) 0).outcome =
        [.error (.timeout 1 40 4), .ok (.closedAfterCallback 0), .error (.timeout 1 40 4)] ∧
      (brief.play (Client.wait missing 40 15).run 0).finish = 40 ∧
      (brief.play (Client.waitAll [closing] 40 15) 0).outcome[0]? = some (.ok (.closedAfterCallback 0)) := by
  obtain ⟨closes, late⟩ := brief_alone
  obtain ⟨outcomes, _, _, reports, others⟩ := Client.waits_alone brief [missing, closing, missing] 40 15 0
  simp only [List.map_cons, List.map_nil, closes, late] at outcomes
  obtain ⟨_, finish, _⟩ := reports missing List.mem_cons_self 1 40 4 late
  have same := others [closing] 1 0 rfl
  rw [outcomes] at same
  exact ⟨outcomes, finish, same.symm⟩

end Recorded

end Randomness
