import Randomness.Proofs.Finalizing
import Randomness.Proofs.Proceedings

/-!
Whose signature it takes to consume a legacy request, and whose to close it: the requester's to consume it, but
anyone's to close it once it is consumed.
-/

namespace Randomness

section

variable [Crypto] {keys : Set Address} {P : Address} {id : UInt64}

/-- A deed makes a fulfilled request `q` the consumed request `r`. -/
structure Deed.Consumes (d : Deed) (P : Address) (id : UInt64) (q r : LegacyRequest) : Prop where
  found : d.before.records (.legacyRequest P id) = some q
  fulfilled : q.status = .fulfilled
  left : d.after.records (.legacyRequest P id) = some r
  consumed : r.status = .consumed

/-- A deed removes a request. -/
structure Deed.Closes (d : Deed) (P : Address) (id : UInt64) (r : LegacyRequest) : Prop where
  found : d.before.records (.legacyRequest P id) = some r
  gone : d.after.records (.legacyRequest P id) = none

namespace Deed.Done

variable {d : Deed} {σ τ : Registry} {q r : LegacyRequest}

theorem consumes (h : d.Done keys σ τ) (found : σ (.legacyRequest P id) = some q)
    (fulfilled : q.status = .fulfilled) (left : τ (.legacyRequest P id) = some r)
    (consumed : r.status = .consumed) : q.requester ∈ d.signers ∧ r.requester = q.requester := by
  have handled := h.handles .legacy P id
  simp only [Registry.request?, found, left, Option.map_some, Option.some.injEq,
    RequestAccount.legacy.injEq] at handled
  rcases handled with rfl | ⟨c, _, signed, _, handles⟩
  · rw [fulfilled] at consumed
    cases consumed
  · cases handles with
    | fulfilled => cases consumed
    | consumed => exact ⟨signed, rfl⟩

theorem closes (h : d.Done keys σ τ) (found : σ (.legacyRequest P id) = some r)
    (gone : τ (.legacyRequest P id) = none) : r.status = .consumed ∧
      ∃ closer ∈ d.signers, Legacy.closeRequest P closer id = .ok d.instruction := by
  have handled := h.handles .legacy P id
  simp only [Registry.request?, found, gone, Option.map_some, Option.map_none] at handled
  rcases handled with same | ⟨c, made, signed, _, handles⟩
  · cases same
  · cases handles with
    | closed consumed => exact ⟨consumed, _, signed, made⟩

end Deed.Done

/-- A request that is consumed has been made so, with the signature of its requester. -/
theorem Led.consumed {σ : Registry} {D : List Deed} (h : Led keys σ D) (hP : P ∈ keys) {r : LegacyRequest}
    (found : σ (.legacyRequest P id) = some r) (consumed : r.status = .consumed) :
    ∃ d ∈ D, ∃ q, d.Consumes P id q r ∧ r.requester ∈ d.signers := by
  induction h with
  | start => cases found
  | @snoc σ τ D d led done ih =>
    have within : (Site.legacyRequest P id).Over keys := by simpa using hP
    have earlier (found : σ (.legacyRequest P id) = some r) :
        ∃ e ∈ D ++ [d], ∃ q, e.Consumes P id q r ∧ r.requester ∈ e.signers := by
      obtain ⟨e, he, consumes⟩ := ih found
      exact ⟨e, List.mem_append_left _ he, consumes⟩
    have handled := done.handles .legacy P id
    cases old : σ (.legacyRequest P id) with
    | none =>
      simp only [Registry.request?, found, old, Option.map_some, Option.map_none] at handled
      rcases handled with same | ⟨c, _, _, _, handles⟩
      · cases same
      · cases handles with
        | requested asks fresh =>
          rw [show r.status = .pending from fresh.pending] at consumed
          cases consumed
    | some q =>
      by_cases fulfilled : q.status = .fulfilled
      · obtain ⟨signed, same⟩ := done.consumes old fulfilled found consumed
        refine ⟨d, List.mem_append_right D List.mem_cons_self, q, ⟨?_, fulfilled, ?_, consumed⟩, same ▸ signed⟩
        · exact (done.before.records_eq within).trans old
        · exact (done.after.records_eq within).trans found
      · simp only [Registry.request?, found, old, Option.map_some, Option.some.injEq,
          RequestAccount.legacy.injEq] at handled
        rcases handled with rfl | ⟨c, _, _, _, handles⟩
        · exact earlier old
        · cases handles with
          | fulfilled => cases consumed
          | consumed already => exact absurd already fulfilled

namespace Finalization

variable {ι : Type} {a : Address} {b : UInt8} {f : Finalization} {E : List (Exchange ι)}

/-- What a call sends can be made from an operation. -/
theorem Standing.made {q : LedgerRequest} {next : q.Answer → Rest} (hP : f.program ∈ keys)
    (stands : Standing f id a E (.ok (.ask q next))) : q.Made keys := by
  rcases stands.asks with ⟨b, rfl⟩ | ⟨c, i, alone, made, rfl⟩
  · trivial
  · refine ⟨[.command f.program c], ?_, Submission.instructions_cons_eq_ok.2 ⟨i, [], made, rfl, rfl⟩⟩
    simp [Operation.Over, hP, alone]

/-- An exchange asks for an account, or is a transaction of one instruction that its caller signs. -/
def Plain (f : Finalization) (x : Exchange ι) : Prop :=
  (∃ b, x.question = .account b) ∨ ∃ i, x.question = .submit [i] [f.requester]

/-- An exchange that closes the request is a deed of its caller. -/
theorem Plain.closes {D : List Deed} {x : Exchange ι} (h : f.Plain x) (noted : x.Noted D)
    (ha : (Site.legacyRequest P id).address = .ok (a, b)) (closes : x.Closes a) :
    ∃ d ∈ D, ∃ r, d.Closes P id r ∧ d.signers = [f.requester] := by
  obtain ⟨is, signers, sent⟩ := closes.sent
  obtain ⟨r, found, _⟩ := closes.request
  have gone := closes.gone
  rcases h with ⟨b, asked⟩ | ⟨i, asked⟩
  · rw [sent] at asked
    cases asked
  · have changed : x.after ≠ x.before := by
      intro same
      rw [same, found] at gone
      cases gone
    obtain ⟨d, hd, _, signers, before, after⟩ := noted.deed asked changed
    refine ⟨d, hd, r, ⟨?_, ?_⟩, signers⟩
    · rw [before, Accounts.records_eq ha, show x.before.accounts.get? a = _ from found, Option.bind_some,
        show (Site.legacyRequest P id).kind.decode _ = .ok r from Kind.decode_encode .legacyRequest r trivial]
      rfl
    · rw [after, Accounts.records_eq ha, show x.after.accounts.get? a = none from gone, Option.bind_none]

end Finalization

open Finalization in
/-- Consuming takes the requester's signature, and closing takes an earlier consumption. Whatever transactions
have led to the ledger, and however calls of `finalize` on one request and other transactions interleave: only
with the requester's signature the request is consumed; it is only closed by whoever signs that, after it has
been consumed; and so a call returns a randomness only for the requester, unless a transaction of someone else
that the requester has signed consumed the request before. -/
theorem Arena.requester_consents {ι : Type} [DecidableEq ι] {a : Address} {b : UInt8}
    (distinct : DistinctAddresses keys) (ts : List Submission) (past : ∀ t ∈ ts, t.Over keys) (hP : P ∈ keys)
    (ha : (Site.legacyRequest P id).address = .ok (a, b)) (calls : ι → Finalization)
    (on : ∀ k, (calls k).program = P ∧ (calls k).handle.address = a) (moves : List (Move ι))
    (inside : ∀ m ∈ moves, m.Over keys) :
    let first := Arena.start (Ledger.history ts).1 fun k => (calls k).start
    let D := Ledger.fresh.annals ts ++ first.annals moves
    (∀ d ∈ D, ∀ q r, d.Consumes P id q r → q.requester ∈ d.signers ∧ r.requester = q.requester) ∧
    (∀ earlier d later, D = earlier ++ d :: later → ∀ r, d.Closes P id r → r.status = .consumed ∧
      (∃ closer ∈ d.signers, Legacy.closeRequest P closer id = .ok d.instruction) ∧
      ∃ e ∈ earlier, ∃ q, e.Consumes P id q r ∧ r.requester ∈ e.signers) ∧
    ∀ k q, (first.run moves).Returned k (.ok q) → ∃ earlier d later, D = earlier ++ d :: later ∧
      d.signers = [(calls k).requester] ∧ ∃ r, d.Closes P id r ∧ (r.requester = (calls k).requester ∨
        ∃ e ∈ earlier, (∃ q, e.Consumes P id q r) ∧ r.requester ∈ e.signers ∧
          e.signers ≠ [(calls k).requester]) := by
  intro first D
  have within : (Site.legacyRequest P id).Over keys := by simpa using hP
  have kept := Arena.run_induction_annals (A := first) (D := Ledger.fresh.annals ts)
    (G := fun X l D => l.Reached keys D ∧ ∃ σ H, Backed keys l.accounts σ l.slot ∧ Course P id a X σ H)
    (I := fun k E _ d => (calls k).Standing id a E d ∧ ∀ x ∈ E, (calls k).Plain x)
    (fun k E D D' d held => held) ?_ ?_ ?_ ⟨Ledger.reached distinct ts past, ?_⟩
    (fun k => ⟨.looking (calls k).looks, by simp [asked, first, start]⟩) inside
  · obtain ⟨⟨⟨σ, _, led⟩, _⟩, each⟩ := kept
    have closing (earlier : List Deed) (d : Deed) (later : List Deed) (order : D = earlier ++ d :: later)
        (r : LegacyRequest) (closes : d.Closes P id r) : r.status = .consumed ∧
          (∃ closer ∈ d.signers, Legacy.closeRequest P closer id = .ok d.instruction) ∧
          ∃ e ∈ earlier, ∃ q, e.Consumes P id q r ∧ r.requester ∈ e.signers := by
      obtain ⟨ρ, ρ', led', done⟩ := led.split order
      have found := (done.before.records_eq within).symm.trans closes.found
      have gone := (done.after.records_eq within).symm.trans closes.gone
      obtain ⟨consumed, closer⟩ := done.closes found gone
      exact ⟨consumed, closer, led'.consumed hP found consumed⟩
    refine ⟨fun d hd q r consumes => ?_, closing, fun k q returned => ?_⟩
    · obtain ⟨ρ, ρ', done⟩ := led.done_of_mem hd
      exact done.consumes ((done.before.records_eq within).symm.trans consumes.found) consumes.fulfilled
        ((done.after.records_eq within).symm.trans consumes.left) consumes.consumed
    · obtain ⟨stands, plain⟩ := each k
      rw [returned] at stands
      obtain ⟨E, y, asked, _, closes, _⟩ := stands.returned
      have hy : y ∈ (first.run moves).asked k := by simp [asked]
      have noted : y.Noted (first.annals moves) :=
        (first.noted moves y (Arena.mem_asked.1 hy).1).resolve_left List.not_mem_nil
      obtain ⟨d, hd, r, closed, signers⟩ := (plain y hy).closes noted ha closes
      obtain ⟨earlier, later, order⟩ := List.append_of_mem (List.mem_append_right (Ledger.fresh.annals ts) hd)
      obtain ⟨_, _, e, he, q, consumes, signed⟩ := closing earlier d later order r closed
      refine ⟨earlier, d, later, order, signers, r, closed, ?_⟩
      by_cases own : e.signers = [(calls k).requester]
      · rw [own, List.mem_singleton] at signed
        exact .inl signed
      · exact .inr ⟨e, he, ⟨q, consumes⟩, signed, own⟩
  · intro X l D t ht held
    obtain ⟨reached, σ, H, backed, course⟩ := held
    obtain ⟨τ, after⟩ := course.after backed hP ht
    exact ⟨reached.transact ht, τ, _, after⟩
  · exact fun k E D ms next held => absurd held.1 Standing.not_pause
  · intro k X E l D q next held held'
    obtain ⟨reached, σ, H, backed, course⟩ := held
    obtain ⟨stands, plain⟩ := held'
    obtain ⟨rfl, rfl⟩ := on k
    obtain ⟨⟨τ, after⟩, stands'⟩ := stands.told hP ha backed course
    refine ⟨⟨reached.told (stands.made hP), τ, H, after⟩, stands', forall_mem_snoc plain ?_⟩
    exact stands.asks.imp_right fun sent => by
      obtain ⟨c, i, _, _, sent⟩ := sent
      exact ⟨i, sent⟩
  · obtain ⟨σ, backed, course⟩ := (Rivals.start distinct ts past hP calls).course
    exact ⟨σ, _, backed, course⟩

end

namespace Recorded

/-- The first call has closed the request, which was consumed before with its requester's signature. -/
theorem finished_consents :
    let _ := crypto
    let first := Arena.start (Ledger.history [pledged]).1 fun k => (finalizer k).start
    ∃ earlier d later, Ledger.fresh.annals [pledged] ++ first.annals finish = earlier ++ d :: later ∧
      d.signers = [consumer] ∧ ∃ r, d.Closes program 0 r ∧
        ∃ e ∈ earlier, ∃ q, e.Consumes program 0 q r ∧ r.requester ∈ e.signers := by
  intro _ first
  have place : @Site.address crypto (.legacyRequest program 0) = .ok (addresses[4].2, 255) :=
    address_of addresses[4] (List.getElem_mem _)
  have past : ∀ t ∈ [pledged], t.Over Set.univ := by
    simp [Submission.Over, pledged, Operation.Over]
  have inside : ∀ m ∈ finish, m.Over Set.univ := by
    simp [finish, Move.Over, Submission.Over, fulfilling, Operation.Over]
  obtain ⟨_, closing, returns⟩ := Arena.requester_consents distinct [pledged] past (Set.mem_univ program) place
    finalizer (fun _ => ⟨rfl, rfl⟩) finish inside
  obtain ⟨earlier, d, later, order, signers, r, closes, _⟩ := returns 0 answer (returned_of_eq finished_first)
  exact ⟨earlier, d, later, order, signers, r, closes, (closing earlier d later order r closes).2.2⟩

def consuming : Submission where
  operations := [.command program (.consumeRandomness consumer 0)]
  signers := [consumer]

/-- Someone else finalizes the consumed request. -/
def stranger (k : Fin 2) : Finalization := { finalizer k with requester := program }

/-- Whoever asks may close a consumed request, and is told its randomness. -/
theorem stranger_finalizes :
    let _ := crypto
    let first := Arena.start (Ledger.history [pledged, fulfilling, consuming]).1 fun k => (stranger k).start
    let moves := [0, 0, 0, 0].map Move.turn
    (first.run moves).Returned 0 (.ok answer) ∧ ∃ d ∈ first.annals moves,
      ∃ r, d.Closes program 0 r ∧ r.requester = consumer ∧ consumer ∉ d.signers := by
  intro _ first moves
  have run : (decide (returned? (first.run moves) 0 = some answer) && (first.annals moves).any fun d =>
      ((d.before.records (.legacyRequest program 0)).any fun r => r.requester = consumer) &&
      (d.after.records (.legacyRequest program 0)).isNone && decide (consumer ∉ d.signers)) = true := by
    decide +kernel
  simp only [Bool.and_eq_true, List.any_eq_true, Option.any_eq_true, decide_eq_true_eq,
    Option.isNone_iff_eq_none] at run
  obtain ⟨returned, d, hd, ⟨⟨r, found, own⟩, gone⟩, unsigned⟩ := run
  exact ⟨returned_of_eq returned, d, hd, r, ⟨found, gone⟩, own, unsigned⟩

end Recorded

end Randomness
