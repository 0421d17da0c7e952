import Randomness.Proofs.Finalizing
import Randomness.Proofs.Handle
import Randomness.Proofs.Polling
import Randomness.Simulation.Session

/-!
Waiting for a request: whatever happens between the polls, the outcome says what has become of the request.
-/

namespace Randomness

section

variable [Crypto] {keys : Set Address} {ι κ : Type}

/-- What an exchange has seen of the request that a handle names. -/
def Exchange.Sees (x : Exchange ι) (h : RequestHandle) (r : RequestAccount) : Prop :=
  ∃ data, x.before.get? h.address = some data ∧ RequestAccount.decode h.generation data = .ok r

namespace Waiter

/-- What an outcome says of the deeds before it, and of the polls. -/
inductive Truth (w : Waiter) (E : List (Exchange ι)) (D : List Deed) : Except ClientError WaitOutcome → Prop
  | fulfilled {v : RequestView} (legacy : w.handle.generation = .legacy) (place : v.address = w.handle.address)
      (id : v.account.requestId = w.handle.requestId)
      (trail : Trail D w.program w.handle.requestId .legacy [.requested, .fulfilled v.account.randomness]) :
      Truth w E D (.ok (.fulfilled v))
  | closedAfterCallback (subscription : w.handle.generation = .subscription)
      (trail : Trail D w.program w.handle.requestId .subscription [.requested, .delivered]) :
      Truth w E D (.ok (.closedAfterCallback w.handle.requestId))
  | requestClosed (legacy : w.handle.generation = .legacy) (randomness : Block 32)
      (trail : Trail D w.program w.handle.requestId .legacy
        [.requested, .fulfilled randomness, .consumed, .closed]) :
      Truth w E D (.error (.lifecycle (.requestClosed w.handle.requestId)))
  | timeout (undecided : (∃ E' x r, E = E' ++ [x] ∧ x.Sees w.handle r ∧ r.status = .pending) ∨
        w.handle.seen = false ∧ ∀ x ∈ E, x.before.get? w.handle.address = none) :
      Truth w E D (.error (.timeout w.handle.requestId w.timeout E.length))

/-- The handle that a wait goes on with: its own, or the same as seen. -/
inductive Knows (w : Waiter) (E : List (Exchange ι)) (D : List Deed) : RequestHandle → Prop
  | unseen (new : w.handle.seen = false) (absent : ∀ x ∈ E, x.before.get? w.handle.address = none) :
      Knows w E D w.handle
  | seen {d : Deed} (hd : d ∈ D) (made : d.Marks w.program w.handle.requestId w.handle.generation .requested) :
      Knows w E D { w.handle with seen := true }

/-- How a wait stands with what it has asked and what was executed. -/
inductive Standing (w : Waiter) (E : List (Exchange ι)) (D : List Deed) :
    Except Crash (LedgerDialogue (Except ClientError WaitOutcome)) → Prop
  | polling {s : RequestHandle} {elapsed : Nat} (knows : w.Knows E D s) (within : elapsed ≤ w.timeout)
      {d : LedgerDialogue (Except ClientError WaitOutcome)} (left : d = w.remaining s elapsed E.length) :
      Standing w E D (.ok d)
  | resting {s : RequestHandle} {elapsed ms : Nat} (knows : w.Knows E D s) (within : elapsed ≤ w.timeout) :
      Standing w E D (.ok (.pause ms (w.remaining s elapsed E.length)))
  | ended {r : Except ClientError WaitOutcome} (truth : w.Truth E D r) : Standing w E D (.ok (.done r))

variable {w : Waiter} {E : List (Exchange ι)} {D : List Deed}

theorem Truth.later {r : Except ClientError WaitOutcome} (h : w.Truth E D r) (D' : List Deed) :
    w.Truth E (D ++ D') r := by
  cases h with
  | fulfilled legacy place id trail => exact .fulfilled legacy place id (trail.later D')
  | closedAfterCallback subscription trail => exact .closedAfterCallback subscription (trail.later D')
  | requestClosed legacy randomness trail => exact .requestClosed legacy randomness (trail.later D')
  | timeout nothing => exact .timeout nothing

theorem Knows.eq {s : RequestHandle} (h : w.Knows E D s) : ∃ seen, s = { w.handle with seen } := by
  cases h <;> exact ⟨_, rfl⟩

theorem Knows.later {s : RequestHandle} (h : w.Knows E D s) (D' : List Deed) : w.Knows E (D ++ D') s := by
  cases h with
  | unseen new absent => exact .unseen new absent
  | seen hd made => exact .seen (List.mem_append_left D' hd) made

namespace Standing

theorem later {d : Except Crash (LedgerDialogue (Except ClientError WaitOutcome))} (h : w.Standing E D d)
    (D' : List Deed) : w.Standing E (D ++ D') d := by
  cases h with
  | polling knows within left => exact .polling (knows.later D') within left
  | resting knows within => exact .resting (knows.later D') within
  | ended truth => exact .ended (truth.later D')

theorem start (names : w.handle.Names w.program D) : w.Standing ([] : List (Exchange ι)) D (.ok w.start) := by
  refine .polling (E := []) (s := w.handle) ?_ (Nat.zero_le _) rfl
  cases seen : w.handle.seen with
  | false => exact .unseen seen (by simp)
  | true =>
    obtain ⟨d, hd, made⟩ := names.made seen
    have same : { w.handle with seen := true } = w.handle := by rw [← seen]
    rw [← same]
    exact .seen hd made

/-- A poll that decides nothing. -/
theorem onward {x : Exchange ι} {s : RequestHandle} {elapsed : Nat} (within : elapsed ≤ w.timeout)
    (knows : w.Knows (E ++ [x]) D s)
    (undecided : (∃ r, x.Sees w.handle r ∧ r.status = .pending) ∨
      w.handle.seen = false ∧ ∀ y ∈ E ++ [x], y.before.get? w.handle.address = none) :
    w.Standing (E ++ [x]) D (.ok (w.onward s elapsed E.length)) := by
  have count : E.length + 1 = (E ++ [x]).length := by simp
  rw [Waiter.onward, count]
  split
  · next up =>
    obtain rfl : elapsed = w.timeout := le_antisymm within up
    refine .ended (.timeout (undecided.imp_left fun pending => ?_))
    obtain ⟨r, sees, pending⟩ := pending
    exact ⟨E, x, r, rfl, sees, pending⟩
  · refine .resting knows ?_
    have step : Wait.step w.timeout w.interval elapsed ≤ w.timeout - elapsed := min_le_right ..
    omega

theorem truth {r : Except ClientError WaitOutcome} (h : w.Standing E D (.ok (.done r))) : w.Truth E D r := by
  cases h with
  | polling knows within left =>
    rw [remaining_eq] at left
    cases left
  | ended truth => exact truth

theorem rested {ms : Nat} {next : LedgerDialogue (Except ClientError WaitOutcome)}
    (h : w.Standing E D (.ok (.pause ms next))) : w.Standing E D (.ok next) := by
  cases h with
  | polling knows within left =>
    rw [remaining_eq] at left
    cases left
  | resting knows within => exact .polling knows within rfl

/-- A poll, on whatever ledger it comes to. -/
theorem found {x : Exchange ι} {s : RequestHandle} {elapsed : Nat} (knows : w.Knows E D s)
    (within : elapsed ≤ w.timeout) (reached : x.before.Reached keys D) (hP : w.program ∈ keys) {b : UInt8}
    (place : Site.address ⟨w.program, .request w.handle.generation w.handle.requestId⟩ =
      .ok (w.handle.address, b)) :
    w.Standing (E ++ [x]) D (.ok (w.found s elapsed E.length (x.before.get? w.handle.address))) := by
  obtain ⟨σ, backed, led⟩ := reached
  have past := led.past hP w.handle.generation w.handle.requestId
  cases there : σ.request? w.handle.generation w.program w.handle.requestId with
  | some r =>
    rw [there] at past
    obtain ⟨ms, past, trail⟩ := past.resolve_left fun never => nomatch never.1
    obtain ⟨a, _, data, ha, stored, read⟩ := backed.request_stored there
    obtain ⟨rfl, rfl⟩ := Prod.mk.inj (Except.ok.inj (place.symm.trans ha))
    obtain ⟨seen, rfl⟩ := knows.eq
    rw [show x.before.get? w.handle.address = some data from stored]
    simp only [Waiter.found, read]
    split
    · next pending =>
      obtain ⟨rest, rfl⟩ := past.made
      obtain ⟨d, hd, made⟩ := trail.first
      exact onward within (.seen hd made) (.inl ⟨r, ⟨data, stored, read⟩, pending⟩)
    · next answered =>
      obtain ⟨legacy, start⟩ := past.answered answered
      have answer := trail.take 2
      rw [start, legacy] at answer
      exact .ended (.fulfilled legacy rfl (backed.sound _ _ _ r there).1.owned.requestId_eq answer)
  | none =>
    have vacant : x.before.get? w.handle.address = none := backed.request_vacant hP there place
    rw [there] at past
    rw [vacant]
    cases knows with
    | unseen new absent =>
      simp only [Waiter.found, new, Bool.false_eq_true, if_false]
      have absent' := forall_mem_snoc absent vacant
      exact onward within (.unseen new absent') (.inr ⟨new, absent'⟩)
    | seen hd made =>
      obtain ⟨ms, past, trail⟩ := past.resolve_left fun never => never.2 _ hd made
      simp only [Waiter.found, if_true]
      cases generation : w.handle.generation with
      | legacy =>
        rw [generation] at past trail
        cases past with
        | closed randomness => exact .ended (.requestClosed generation randomness trail)
      | subscription =>
        rw [generation] at past trail
        cases past with
        | delivered => exact .ended (.closedAfterCallback generation trail)

/-- A wait only asks for the request's account. -/
theorem told {k : ι} {l : Ledger} {q : LedgerRequest}
    {next : q.Answer → LedgerDialogue (Except ClientError WaitOutcome)} (h : w.Standing E D (.ok (.ask q next)))
    (reached : l.Reached keys D) (hP : w.program ∈ keys) {b : UInt8}
    (place : Site.address ⟨w.program, .request w.handle.generation w.handle.requestId⟩ =
      .ok (w.handle.address, b)) :
    q = .account w.handle.address ∧
      w.Standing (E ++ [⟨k, l, (l.told q).1, q, (l.told q).2⟩]) D ((l.told q).2.map next) := by
  cases h with
  | polling knows within left =>
    obtain ⟨seen, rfl⟩ := knows.eq
    rw [remaining_eq] at left
    cases left
    exact ⟨rfl, found knows within reached hP place⟩

end Standing

/-- A waiter's handle has been returned by a call of `submit` for the same coordinator, or is made from an id. -/
inductive Tracks (w : Waiter) (calls : κ → Call) (B : Arena κ (Except ClientError RequestHandle)) : Prop
  | submitted {j : κ} (program : (calls j).program = w.program)
      (generation : (calls j).generation = w.client.generation) (returned : B.Returned j (.ok w.handle))
  | watched {id : UInt64} (made : RequestHandle.watch w.program w.client.generation id = .ok w.handle)

end Waiter

/-- The handles of a session stay as they are while it waits. -/
theorem Simulation.Session.wait_keeps {s s' : Session} {n timeout interval : Nat} {ahead : List Appointment}
    {injections : List Injection} {r : Report}
    (h : s.step (.client (.wait n timeout interval ahead) injections) = .ok (s', r)) : s'.handles = s.handles := by
  change s.withHandle n _ = _ at h
  unfold withHandle at h
  split at h
  · simp only [talk, bind_eq_ok, pure_eq_ok] at h
    obtain ⟨_, _, same⟩ := h
    cases same
    exact List.append_nil _
  · cases h
    rfl

open Waiter in
/-- What a waiter is told is true. Whatever transactions and calls of `submit` have led to the ledger, and
however polls and other transactions interleave: with a handle that `submit` has returned, which counts as
seen, or that is made from an id, a wait only returns an outcome that the deeds and polls by then bear out. It
fails in no other way, asks for nothing but the request's account, and leaves the ledger, and the handles that
a session keeps, as they are. -/
theorem Arena.waits_truthfully [DecidableEq ι] [DecidableEq κ] (distinct : DistinctAddresses keys)
    (ts : List Submission) (past : ∀ t ∈ ts, t.Over keys) (calls : κ → Call) (within : ∀ j, (calls j).Over keys)
    (earlier : List (Move κ)) (before : ∀ m ∈ earlier, m.Over keys) (waiters : ι → Waiter)
    (programs : ∀ k, (waiters k).program ∈ keys)
    (tracks : ∀ k, (waiters k).Tracks calls
      ((Arena.start (Ledger.history ts).1 fun j => (calls j).start).run earlier))
    (moves : List (Move ι)) (inside : ∀ m ∈ moves, m.Over keys) :
    let submits := Arena.start (Ledger.history ts).1 fun j => (calls j).start
    let first := Arena.start (submits.run earlier).ledger fun k => (waiters k).start
    let A := first.run moves
    let D := Ledger.fresh.annals ts ++ submits.annals earlier ++ first.annals moves
    (∀ j h, (submits.run earlier).Returned j (.ok h) → h.seen = true) ∧
    (∀ k, (∀ r, A.Returned k r → (waiters k).Truth (A.asked k) D r) ∧ (∀ f, A.talks k ≠ .error f) ∧
      ∀ x ∈ A.asked k, x.question = .account (waiters k).handle.address ∧ x.after = x.before) ∧
    ∀ (s s' : Simulation.Session) n timeout interval ahead injections r,
      s.step (.client (.wait n timeout interval ahead) injections) = .ok (s', r) → s'.handles = s.handles := by
  intro submits first A D
  obtain ⟨reached, handed⟩ := Arena.handed (Ledger.reached distinct ts past) distinct within before
  have names (k : ι) : (waiters k).handle.Names (waiters k).program
      (Ledger.fresh.annals ts ++ submits.annals earlier) := by
    cases tracks k with
    | submitted program generation returned =>
      rw [← program]
      exact (handed _ _ returned).2.2
    | watched made => exact RequestHandle.watch_names made _
  have kept := Arena.run_induction_annals (A := first) (D := Ledger.fresh.annals ts ++ submits.annals earlier)
    (G := fun _ l D => l.Reached keys D)
    (I := fun k E D d => (waiters k).Standing E D d ∧
      ∀ x ∈ E, x.question = .account (waiters k).handle.address ∧ x.after = x.before)
    (fun k E D D' d held => ⟨held.1.later D', held.2⟩) (fun X l D t ht reached => reached.transact ht) ?_ ?_
    reached (fun k => ⟨.start (names k), by simp [asked, first, Arena.start]⟩) inside
  · obtain ⟨_, each⟩ := kept
    refine ⟨fun j h returned => (handed j h returned).1, fun k => ?_, ?_⟩
    · obtain ⟨stands, quiet⟩ := each k
      refine ⟨fun r returned => ?_, fun f crashed => ?_, quiet⟩
      · rw [returned] at stands
        exact stands.truth
      · rw [crashed] at stands
        cases stands
    · exact fun s s' n timeout interval ahead injections r => Simulation.Session.wait_keeps
  · intro k E D ms next held
    obtain ⟨stands, quiet⟩ := held
    exact ⟨stands.rested, quiet⟩
  · intro k X E l D q next reached held
    obtain ⟨stands, quiet⟩ := held
    obtain ⟨b, place⟩ := (names k).place
    obtain ⟨rfl, stands'⟩ := stands.told (k := k) reached (programs k) place
    have nothing : l.prompted (.account (waiters k).handle.address) = [] := rfl
    rw [nothing, List.append_nil]
    exact ⟨reached, stands', forall_mem_snoc quiet ⟨rfl, rfl⟩⟩

end

namespace Recorded

/-- A subscription with one consumer and a balance, whose requests an authority can answer. -/
def serving : Submission where
  operations := [.command program (.initializeSubscription program authority 7 5),
    .command program (.createSubscription consumer 0), .command program (.addConsumer consumer 0 consumer),
    .command program (.fundSubscription consumer 0 100)]
  signers := [program, consumer]

/-- The first request, with its callback. -/
def delivering : Submission where
  operations := [.signature secret (Proof.message 0 answer).bytes, .command program (.fulfillRandomWords authority
      { requestId := 0, subscriptionId := 0, consumerProgram := consumer, requester := consumer, numWords := 2
        seed := Block.zero 32, requestSlot := 102, callbackComputeLimit := 200000, status := .pending
        randomness := Block.zero 32, fulfilledSlot := 0, numCallbackAccounts := 0
        callbackAccounts := .replicate 4 Address.zero, callbackWritableBitmap := 0, bump := 255 } answer)]
  signers := [authority]

/-- The request has been submitted. -/
def asked : Arena Unit (Except ClientError RequestHandle) :=
  let _ := crypto
  (Arena.start (Ledger.history [serving]).1 fun _ => asker.start).run (List.replicate 4 (.turn ()))

/-- One waits with a handle of `submit`, the other one with the id alone. -/
def waiter (h : RequestHandle) (alone : Bool) : Waiter where
  client := ⟨program, .subscription binding⟩
  handle := if alone then ⟨0, addresses[6].2, .subscription, false, none⟩ else h
  timeout := 1000
  interval := 10

/-- Each polls before and after the request is answered. -/
def polls : List (Move Bool) :=
  [.turn false, .turn false, .turn true, .turn true, .transact delivering, .turn false, .turn true]

def waited (h : RequestHandle) : Arena Bool (Except ClientError WaitOutcome) :=
  let _ := crypto
  (Arena.start asked.ledger fun k => (waiter h k).start).run polls

theorem delivered_both :
    ((returned? asked ()).map fun h => (returned? (waited h) false, returned? (waited h) true)) =
    some (some (.closedAfterCallback 0), some (.closedAfterCallback 0)) := by decide +kernel

/-- Both are told that the request is closed after its callback, which has been executed. -/
theorem delivered_truthfully :
    let _ := crypto
    ∃ h, asked.Returned () (.ok h) ∧ h.seen = true ∧
      (∀ k, (waited h).Returned k (.ok (.closedAfterCallback 0))) ∧
      let first := Arena.start asked.ledger fun k => (waiter h k).start
      Trail (Ledger.fresh.annals [serving] ++ (Arena.start (Ledger.history [serving]).1 fun _ => asker.start).annals
        (List.replicate 4 (.turn ())) ++ first.annals polls) program 0 .subscription [.requested, .delivered] := by
  intro _
  obtain ⟨h, handed, both⟩ := Option.map_eq_some_iff.1 delivered_both
  obtain ⟨first, second⟩ := Prod.mk.inj both
  have submitted : asked.Returned () (.ok h) := returned_of_eq handed
  have place : @Site.address crypto (.wordsRequest program 0) = .ok (addresses[6].2, 255) :=
    address_of addresses[6] (List.getElem_mem _)
  have past : ∀ t ∈ [serving], t.Over Set.univ := by
    simp [Submission.Over, serving, Operation.Over]
  have before : ∀ m ∈ List.replicate 4 (Move.turn ()), m.Over Set.univ := by
    intro m hm
    rw [List.eq_of_mem_replicate hm]
    trivial
  have inside : ∀ m ∈ polls, m.Over Set.univ := by
    simp [polls, Move.Over, Submission.Over, delivering, Operation.Over]
  have tracks (k : Bool) : (waiter h k).Tracks (fun _ => asker) asked := by
    cases k with
    | false => exact .submitted (j := ()) rfl rfl submitted
    | true =>
      refine .watched (?_ : RequestHandle.watch program .subscription 0 = .ok _)
      rw [RequestHandle.watch, show (Place.request .subscription 0).address program = _ from place]
      rfl
  obtain ⟨seen, told, _⟩ := Arena.waits_truthfully distinct [serving] past (fun _ => asker)
    (fun _ => ⟨Set.mem_univ _, fun _ _ => Set.mem_univ _⟩) (List.replicate 4 (.turn ())) before (waiter h)
    (fun _ => Set.mem_univ _) tracks polls inside
  have returned (k : Bool) : (waited h).Returned k (.ok (.closedAfterCallback 0)) := by
    cases k with
    | false => exact returned_of_eq first
    | true => exact returned_of_eq second
  refine ⟨h, submitted, seen () h submitted, returned, ?_⟩
  have truth := (told true).1 _ (returned true)
  cases truth with
  | closedAfterCallback subscription trail => exact trail

end Recorded

end Randomness
