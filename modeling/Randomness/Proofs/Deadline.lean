import Mathlib.Algebra.Order.Floor.Div
import Randomness.Index
import Randomness.Proofs.Timeline

/-!
When waits poll, and when they end: at every interval until the timeout, at the first poll that decides or at the
timeout itself.
-/

namespace Randomness

/-- A performance with what was asked before it. -/
def Performance.after (asked : List (Nat × Q)) (p : Performance Q α) : Performance Q α :=
  { p with asked := asked ++ p.asked }

namespace Wait

/-- How long a wait has lasted at a poll: so many intervals, but no longer than the timeout. -/
def instant (timeout interval k : Nat) : Nat := min (k * interval) timeout

/-- The polls of a wait that starts now, up to the `k`-th one after the first. -/
def polls (q : Q) (timeout interval now k : Nat) : List (Nat × Q) :=
  (List.range (k + 1)).map fun j => (now + instant timeout interval j, q)

section

variable {timeout interval k : Nat}

theorem timeout_le_instant (hi : 0 < interval) :
    timeout ≤ instant timeout interval k ↔ timeout ⌈/⌉ interval ≤ k := by
  have bound : timeout ⌈/⌉ interval ≤ k ↔ timeout ≤ interval * k := ceilDiv_le_iff_le_mul hi
  rw [bound, instant, Nat.le_min, Nat.mul_comm]
  exact and_iff_left (Nat.le_refl timeout)

theorem instant_last (hi : 0 < interval) : instant timeout interval (timeout ⌈/⌉ interval) = timeout :=
  Nat.le_antisymm (Nat.min_le_right ..) ((timeout_le_instant hi).2 (Nat.le_refl _))

/-- Before the last poll the instants are the multiples of the interval. -/
theorem instant_of_lt (hi : 0 < interval) (early : k < timeout ⌈/⌉ interval) :
    instant timeout interval k = k * interval ∧ k * interval < timeout := by
  have before : ¬ timeout ≤ instant timeout interval k := by
    rw [timeout_le_instant hi]
    omega
  unfold instant at before ⊢
  omega

theorem instant_succ (hi : 0 < interval) :
    instant timeout interval k + step timeout interval (instant timeout interval k) =
      instant timeout interval (k + 1) := by
  have next : (k + 1) * interval = k * interval + interval := Nat.succ_mul k interval
  unfold instant step
  omega

end

/-- A wait that starts now is on time: it goes on from poll to poll until one settles it, and no longer than the
timeout. -/
structure OnTime (Settles : Nat → Except ClientError α → Prop) (q : Q) (id : UInt64)
    (timeout interval now : Nat) (p : Performance Q (Except ClientError α)) : Prop where
  /-- The first poll that settles the wait is the last one. -/
  settled : ∀ k r, k ≤ timeout ⌈/⌉ interval → Settles k r → (∀ j < k, ∀ r', ¬ Settles j r') →
    p = ⟨r, polls q timeout interval now k, now + instant timeout interval k⟩
  /-- If none does, the wait ends with the poll at the timeout. -/
  expired : (∀ k ≤ timeout ⌈/⌉ interval, ∀ r, ¬ Settles k r) →
    p = ⟨.error (.timeout id timeout (timeout ⌈/⌉ interval + 1)),
      polls q timeout interval now (timeout ⌈/⌉ interval), now + timeout⟩

section

variable {Q : Type} {A : Q → Type} {α σ : Type} {poll : σ → ExceptT ClientError (Dialogue Q A) (α ⊕ σ)}
  {id : UInt64} {timeout interval : Nat} {q : Q} {T : Timeline Q A} {now k : Nat} {states : Nat → σ}
  {reacts : Nat → A q → Except ClientError (α ⊕ σ)}
  (hi : 0 < interval) (asks : ∀ k, (poll (states k)).run = .ask q fun a => .done (reacts k a))

include hi asks

/-- A loop comes to each poll before which nothing is decided, and no later than the timeout. -/
theorem play_loop (within : k ≤ timeout ⌈/⌉ interval)
    (undecided : ∀ j < k, reacts j (T (now + instant timeout interval j) q) = .ok (.inr (states (j + 1)))) :
    T.play (loop poll id timeout interval (states 0) 0 0).run now =
      (T.play (loop poll id timeout interval (states k) (instant timeout interval k) k).run
        (now + instant timeout interval k)).after
          ((List.range k).map fun j => (now + instant timeout interval j, q)) := by
  induction k with
  | zero =>
    have first : instant timeout interval 0 = 0 := by simp [instant]
    rw [first]
    rfl
  | succ k ih =>
    have early : ¬ timeout ≤ instant timeout interval k := by
      rw [timeout_le_instant hi]
      omega
    have goes := undecided k (Nat.lt_succ_self k)
    have before := ih (by omega) fun j hj => undecided j (by omega)
    have later : now + instant timeout interval k + step timeout interval (instant timeout interval k) =
        now + instant timeout interval (k + 1) := by
      rw [Nat.add_assoc, instant_succ hi]
    rw [before, run_loop (asks k), List.range_succ, List.map_append]
    simp only [Timeline.play, goes, if_neg early, later, instant_succ hi, Performance.after, List.append_assoc]
    rfl

/-- A loop is on time if its polls settle it, or leave it in the next of its states. -/
theorem onTime_loop {Settles : Nat → Except ClientError α → Prop}
    (settles : ∀ k r, Settles k r → reacts k (T (now + instant timeout interval k) q) = r.map .inl)
    (goes : ∀ k, (∀ r, ¬ Settles k r) →
      reacts k (T (now + instant timeout interval k) q) = .ok (.inr (states (k + 1)))) :
    OnTime Settles q id timeout interval now
      (T.play (loop poll id timeout interval (states 0) 0 0).run now) where
  settled := by
    intro k r within decided undecided
    rw [play_loop hi asks within fun j hj => goes j (undecided j hj), run_loop (asks k), polls, List.range_succ,
      List.map_append]
    simp only [Timeline.play, settles k r decided]
    cases r <;> rfl
  expired := by
    intro undecided
    have within : timeout ⌈/⌉ interval ≤ timeout ⌈/⌉ interval := Nat.le_refl _
    have last := goes _ (undecided _ within)
    rw [instant_last hi] at last
    rw [play_loop hi asks within fun j hj => goes j (undecided j (Nat.le_of_lt hj)), run_loop (asks _), polls,
      List.range_succ, List.map_append]
    simp only [Timeline.play, instant_last hi, last, Nat.le_refl, if_true, List.map_cons, List.map_nil,
      Performance.after]

end

/-- A wait that is settled at the timeout at the latest does not run out of time, unless what settles it says so. -/
theorem OnTime.outcome_ne {Settles : Nat → Except ClientError α → Prop} {q : Q} {id : UInt64}
    {timeout interval now : Nat} {p : Performance Q (Except ClientError α)} {r : Except ClientError α}
    (h : OnTime Settles q id timeout interval now p) (last : ∃ r, Settles (timeout ⌈/⌉ interval) r)
    (other : ∀ k r', Settles k r' → r' ≠ r) : p.outcome ≠ r := by
  classical
  have some : ∃ k r, Settles k r := ⟨_, last⟩
  obtain ⟨r', decided⟩ := Nat.find_spec some
  have undecided : ∀ j < Nat.find some, ∀ r', ¬ Settles j r' := fun j hj r' settles =>
    Nat.find_min some hj ⟨r', settles⟩
  have ends := h.settled _ r' (Nat.find_min' some last) decided undecided
  rw [ends]
  exact other _ r' decided

end Wait

namespace RequestHandle

/-- A handle after some reads: the request has been seen if an account was found. -/
def after (h : RequestHandle) (reads : Nat → Except LedgerError (Option Bytes)) (k : Nat) : RequestHandle :=
  { h with seen := h.seen || (List.range k).any fun j => (reads j).toOption.join.isSome }

variable {h : RequestHandle} {reads : Nat → Except LedgerError (Option Bytes)}

theorem after_zero : h.after reads 0 = h := by
  simp [after]

theorem after_succ (k : Nat) : h.after reads (k + 1) =
    { h.after reads k with seen := (h.after reads k).seen || (reads k).toOption.join.isSome } := by
  simp [after, List.range_succ, Bool.or_assoc]

end RequestHandle

namespace Client

/-- A read of the request's account that ends a wait, and how. -/
inductive Settles (h : RequestHandle) :
    Except LedgerError (Option Bytes) → Except ClientError WaitOutcome → Prop
  | failed (e : LedgerError) : Settles h (.error e) (.error (.ledger e))
  | malformed {data : Bytes} {e : DecodeError} (read : RequestAccount.decode h.generation data = .error e) :
    Settles h (.ok (some data)) (.error (.decode e))
  | answered {data : Bytes} {r : RequestAccount} (read : RequestAccount.decode h.generation data = .ok r)
      (answered : r.status ≠ .pending) : Settles h (.ok (some data)) (.ok (.fulfilled ⟨h.address, r⟩))
  | delivered (seen : h.seen = true) (generation : h.generation = .subscription) :
    Settles h (.ok none) (.ok (.closedAfterCallback h.requestId))
  | lost (seen : h.seen = true) (generation : h.generation = .legacy) :
    Settles h (.ok none) (.error (.lifecycle (.requestClosed h.requestId)))

variable {h : RequestHandle} {read : Except LedgerError (Option Bytes)}

theorem react_of_settles {r : Except ClientError WaitOutcome} (settles : Settles h read r) :
    react h read = r.map .inl := by
  cases settles with
  | failed e => rfl
  | malformed read => simp only [react, read, Except.map]
  | answered read answered => simp only [react, read, if_neg answered, Except.map]
  | delivered seen generation => simp only [react, seen, generation, if_true, Except.map]
  | lost seen generation => simp only [react, seen, generation, if_true, Except.map]

theorem react_of_not_settles (undecided : ∀ r, ¬ Settles h read r) :
    react h read = .ok (.inr { h with seen := h.seen || read.toOption.join.isSome }) := by
  rcases read with e | _ | data
  · exact absurd (.failed e) (undecided _)
  · cases seen : h.seen with
    | false =>
      obtain ⟨_, _, _, _, _⟩ := h
      cases seen
      rfl
    | true =>
      cases generation : h.generation with
      | legacy => exact absurd (.lost seen generation) (undecided _)
      | subscription => exact absurd (.delivered seen generation) (undecided _)
  · cases read : RequestAccount.decode h.generation data with
    | error e => exact absurd (.malformed read) (undecided _)
    | ok r =>
      have pending : r.status = .pending := by
        by_contra answered
        exact undecided _ (.answered read answered)
      simp [react, read, pending, Except.toOption]

theorem not_settles_of_react {s : RequestHandle} (goes : react h read = .ok (.inr s))
    (r : Except ClientError WaitOutcome) : ¬ Settles h read r := by
  intro settles
  rw [react_of_settles settles] at goes
  cases r <;> cases goes

theorem Settles.ne_timeout {r : Except ClientError WaitOutcome} {id : UInt64} {e n : Nat}
    (settles : Settles h read r) : r ≠ .error (.timeout id e n) := by
  rintro rfl
  cases settles

theorem onTime_wait (T : Timeline LedgerRequest LedgerRequest.Answer) (h : RequestHandle)
    {timeout interval : Nat} (hi : 0 < interval) (now : Nat) :
    let reads := fun k => T (now + Wait.instant timeout interval k) (.account h.address)
    Wait.OnTime (fun k => Settles (h.after reads k) (reads k)) (.account h.address) h.requestId timeout interval now
      (T.play (wait h timeout interval).run now) := by
  intro reads
  have loops : Wait.OnTime (fun k => Settles (h.after reads k) (reads k)) (.account h.address) h.requestId
      timeout interval now
      (T.play (Wait.loop poll h.requestId timeout interval (h.after reads 0) 0 0).run now) := by
    apply Wait.onTime_loop hi (fun k => run_poll (h.after reads k))
    · intro k r settles
      exact react_of_settles settles
    · intro k undecided
      rw [RequestHandle.after_succ]
      exact react_of_not_settles undecided
  rwa [RequestHandle.after_zero] at loops

end Client

namespace Index

/-- A reading of the index that ends a wait, and how: the first request with the id is fulfilled. -/
inductive Settles (id : UInt64) :
    Except LedgerError (List IndexEntry) → Except ClientError IndexedRequest → Prop
  | failed (e : LedgerError) : Settles id (.error e) (.error (.ledger e))
  | answered {es : List IndexEntry} {r : IndexedRequest}
      (first : (es.filterMap IndexEntry.request?).find? (fun r => r.request.requestId = id) = some r)
      (fulfilled : r.request.status = .fulfilled) : Settles id (.ok es) (.ok r)

/-- What a poll makes of a reading. -/
def react (id : UInt64) : Except LedgerError (List IndexEntry) → Except ClientError (IndexedRequest ⊕ Unit)
  | .error e => .error (.ledger e)
  | .ok es => match (es.filterMap IndexEntry.request?).find? fun r => r.request.requestId = id with
    | some r => if r.isFulfilled then .ok (.inl r) else .ok (.inr ())
    | none => .ok (.inr ())

theorem run_poll (program : Address) (id : UInt64) : (wait.poll program id ()).run =
    .ask program fun (r : Except LedgerError (List IndexEntry)) => .done (react id r) := by
  change Dialogue.ask _ _ = _
  congr 1
  funext r
  rcases r with e | es
  · rfl
  · change ExceptT.run (match (es.filterMap IndexEntry.request?).find? fun r => r.request.requestId = id with
      | some r => if r.isFulfilled then pure (Sum.inl r) else pure (Sum.inr ())
      | none => pure (Sum.inr ())) = _
    simp only [react]
    cases (es.filterMap IndexEntry.request?).find? fun r => r.request.requestId = id with
    | none => rfl
    | some r =>
      cases fulfilled : r.isFulfilled
      · simp only [fulfilled, Bool.false_eq_true, if_false]
        rfl
      · simp only [fulfilled, if_true]
        rfl

variable {id : UInt64} {read : Except LedgerError (List IndexEntry)}

theorem react_of_settles {r : Except ClientError IndexedRequest} (settles : Settles id read r) :
    react id read = r.map .inl := by
  cases settles with
  | failed e => rfl
  | answered first fulfilled =>
    simp only [react, first, IndexedRequest.isFulfilled, fulfilled, beq_self_eq_true, if_true, Except.map]

theorem react_of_not_settles (undecided : ∀ r, ¬ Settles id read r) : react id read = .ok (.inr ()) := by
  rcases read with e | es
  · exact absurd (.failed e) (undecided _)
  · simp only [react]
    cases first : (es.filterMap IndexEntry.request?).find? fun r => r.request.requestId = id with
    | none => rfl
    | some r =>
      have unfulfilled : r.isFulfilled = false := by
        rw [IndexedRequest.isFulfilled, beq_eq_false_iff_ne]
        exact fun fulfilled => undecided _ (.answered first fulfilled)
      simp only [unfulfilled, Bool.false_eq_true, if_false]

theorem Settles.ne_timeout {r : Except ClientError IndexedRequest} {id' : UInt64} {e n : Nat}
    (settles : Settles id read r) : r ≠ .error (.timeout id' e n) := by
  rintro rfl
  cases settles

theorem onTime_wait (T : Timeline Address IndexAnswer) (program : Address) (id : UInt64) {timeout interval : Nat}
    (hi : 0 < interval) (now : Nat) :
    Wait.OnTime (fun k => Settles id (T (now + Wait.instant timeout interval k) program)) program id timeout
      interval now (T.play (wait program id timeout interval).run now) := by
  have asks : ∀ k : Nat, (wait.poll program id ((fun _ => ()) k)).run = .ask program
      fun (r : Except LedgerError (List IndexEntry)) => .done (react id r) := fun _ => run_poll program id
  apply Wait.onTime_loop hi asks
  · intro k r settles
    exact react_of_settles settles
  · intro k undecided
    exact react_of_not_settles undecided

end Index

/-- For every timeout and interval: a wait polls at every interval that begins before the timeout and at the timeout
itself, and ends at the first of these polls that settles it. If none does, it ends at the timeout, and says how
long it has lasted and how often it has polled. So what is fulfilled until the timeout is never missed. -/
theorem Wait.ends_on_time (timeout interval now : Nat) (hi : 0 < interval) :
    (∀ k < timeout ⌈/⌉ interval, instant timeout interval k = k * interval ∧ k * interval < timeout) ∧
    instant timeout interval (timeout ⌈/⌉ interval) = timeout ∧
    (∀ (T : Timeline LedgerRequest LedgerRequest.Answer) (h : RequestHandle),
      let read : Nat → Except LedgerError (Option Bytes) := fun t => T (now + t) (.account h.address)
      let reads := fun k => read (instant timeout interval k)
      let p := T.play (Client.wait h timeout interval).run now
      OnTime (fun k => Client.Settles (h.after reads k) (reads k)) (.account h.address) h.requestId timeout interval
        now p ∧
      ∀ f ≤ timeout, (∀ t, f ≤ t → t ≤ timeout → ∃ data r, read t = .ok (some data) ∧
          RequestAccount.decode h.generation data = .ok r ∧ r.status ≠ .pending) →
        ∀ id e n, p.outcome ≠ .error (.timeout id e n)) ∧
    ∀ (T : Timeline Address IndexAnswer) (program : Address) (id : UInt64),
      let read : Nat → Except LedgerError (List IndexEntry) := fun t => T (now + t) program
      let p := T.play (Index.wait program id timeout interval).run now
      OnTime (fun k => Index.Settles id (read (instant timeout interval k))) program id timeout interval now p ∧
      ∀ f ≤ timeout, (∀ t, f ≤ t → t ≤ timeout → ∃ es r, read t = .ok es ∧
          (es.filterMap IndexEntry.request?).find? (fun r => r.request.requestId = id) = some r ∧
          r.request.status = .fulfilled) →
        ∀ id e n, p.outcome ≠ .error (.timeout id e n) := by
  refine ⟨fun k => instant_of_lt hi, instant_last hi, ?_, ?_⟩
  · intro T h read reads p
    have onTime : OnTime (fun k => Client.Settles (h.after reads k) (reads k)) (.account h.address) h.requestId
      timeout interval now p := Client.onTime_wait T h hi now
    refine ⟨onTime, ?_⟩
    intro f early stays id e n
    obtain ⟨data, r, found, decoded, answered⟩ := stays timeout early (Nat.le_refl _)
    have last : reads (timeout ⌈/⌉ interval) = .ok (some data) := (congrArg read (instant_last hi)).trans found
    refine onTime.outcome_ne ⟨.ok (.fulfilled ⟨h.address, r⟩), ?_⟩ fun k r' settles => settles.ne_timeout
    rw [last]
    exact .answered decoded answered
  · intro T program id read p
    have onTime : OnTime (fun k => Index.Settles id (read (instant timeout interval k))) program id timeout interval
      now p := Index.onTime_wait T program id hi now
    refine ⟨onTime, ?_⟩
    intro f early stays id' e n
    obtain ⟨es, r, found, first, fulfilled⟩ := stays timeout early (Nat.le_refl _)
    refine onTime.outcome_ne ⟨.ok r, ?_⟩ fun k r' settles => settles.ne_timeout
    rw [instant_last hi, found]
    exact .answered first fulfilled

namespace Recorded

/-- A leaf of a request that is fulfilled. -/
def ripe : IndexedRequest where
  request :=
    { requestId := 7, requester := Address.zero, seed := Block.zero 32, requestSlot := 101, status := .fulfilled
      randomness := Block.zero 32 }
  hash := Block.zero 32
  address := none
  tree := none
  leafIndex := 0

/-- An index that shows it from 35 milliseconds on. -/
def ripening : Timeline Address IndexAnswer := fun now _ =>
  .ok (if 35 ≤ now then [⟨ripe.hash, none, none, 0, Kind.compressedRequest.encode ripe.request⟩] else [])

/-- With 40 milliseconds and intervals of 15: a request that is never made is polled four times, one that closes is
noticed at the third poll, and what the index shows only in the end is not missed. -/
theorem brief_on_time :
    brief.play (Client.wait missing 40 15).run 0 = ⟨.error (.timeout 1 40 4),
      [(0, .account program), (15, .account program), (30, .account program), (40, .account program)], 40⟩ ∧
    brief.play (Client.wait closing 40 15).run 0 = ⟨.ok (.closedAfterCallback 0),
      [(0, .account consumer), (15, .account consumer), (30, .account consumer)], 30⟩ ∧
    ∀ id e n, (ripening.play (Index.wait program 7 40 15).run 0).outcome ≠ .error (.timeout id e n) := by
  obtain ⟨_, _, waits, searches⟩ := Wait.ends_on_time 40 15 0 (by decide)
  let reads (h : RequestHandle) (k : Nat) : Except LedgerError (Option Bytes) :=
    brief (0 + Wait.instant 40 15 k) (.account h.address)
  refine ⟨?_, ?_, ?_⟩
  · have absent : ∀ k ≤ 3, Client.react (missing.after (reads missing) k) (reads missing k) =
        .ok (.inr missing) := by decide +kernel
    apply (waits brief missing).1.expired
    intro k hk
    exact Client.not_settles_of_react (absent k hk)
  · have waiting : ∀ j < 2, ∃ seen, Client.react (closing.after (reads closing) j) (reads closing j) =
        .ok (.inr { closing with seen }) := by decide +kernel
    apply (waits brief closing).1.settled 2 _ (by decide) (.delivered (by decide +kernel) rfl)
    intro j hj
    obtain ⟨seen, goes⟩ := waiting j hj
    exact Client.not_settles_of_react goes
  · apply (searches ripening program 7).2 35 (by decide)
    intro t late _
    have shown : 35 ≤ 0 + t := by omega
    exact ⟨_, ripe, congrArg Except.ok (if_pos shown), by decide +kernel, rfl⟩

end Recorded

end Randomness
