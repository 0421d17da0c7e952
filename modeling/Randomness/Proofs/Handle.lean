import Randomness.Proofs.Proceedings
import Randomness.Proofs.Race
import Randomness.Proofs.Trail

/-!
Where handles come from: those that calls of `submit` return, and those that are made from an id.
-/

namespace Randomness

variable [Crypto] {keys : Set Address} {ι κ : Type}

namespace Call

variable {c : Call} {n : UInt64} {k : ι} {E : List (Exchange ι)} {h : RequestHandle}

theorem Standing.seen (stands : Standing c k E (.ok (.done (.ok h)))) : h.seen = true := by
  cases stands with
  | unread opens => cases opens
  | reading proper first others asks => cases asks
  | sent first others sends ended =>
    rename_i a
    cases a with
    | error f => cases ended
    | ok a => exact seen_of_ending (Dialogue.done.inj (Except.ok.inj ended)).symm

/-- What a call sends can be made from an operation. -/
theorem Standing.made (inside : c.Over keys) {q : LedgerRequest}
    {next : q.Answer → LedgerDialogue (Except ClientError RequestHandle)}
    (stands : Standing c k E (.ok (.ask q next))) : q.Made keys := by
  cases stands with
  | unread opens =>
    cases opens with
    | read => trivial
  | reading proper first others asks =>
    cases asks with
    | look => trivial
    | send given made =>
      refine ⟨[.command c.program _], ?_, Submission.instructions_cons_eq_ok.2 ⟨_, [], made, rfl, rfl⟩⟩
      exact List.forall_mem_singleton.2 inside.command
  | sent first others sends ended =>
    rename_i a
    cases a <;> cases ended

end Call

/-- The handle's account is that of a request, which has been made if the handle says that it was seen. -/
structure RequestHandle.Names (h : RequestHandle) (P : Address) (D : List Deed) : Prop where
  place : ∃ b, Site.address ⟨P, .request h.generation h.requestId⟩ = .ok (h.address, b)
  made : h.seen = true → ∃ d ∈ D, d.Marks P h.requestId h.generation .requested

theorem RequestHandle.watch_names {P : Address} {g : Generation} {id : UInt64} {h : RequestHandle}
    (made : watch P g id = .ok h) (D : List Deed) : h.Names P D := by
  unfold watch at made
  cases place : (Place.request g id).address P with
  | error e =>
    rw [place] at made
    cases made
  | ok found =>
    rw [place] at made
    cases made
    exact ⟨⟨found.2, place⟩, nofun⟩

/-- What a call creates is a milestone among the deeds. -/
theorem Call.Creates.names {c : Call} {h : RequestHandle} {D : List Deed} {x : Exchange ι} {i : Instruction}
    (creates : c.Creates x.before x.after h) (noted : x.Noted D)
    (sent : x.question = .submit [i] [c.requester]) : h.Names c.program D := by
  obtain ⟨b, place⟩ := creates.place
  obtain ⟨data, r, stored, read, _, _, _, pending⟩ := creates.created
  have vacant := creates.vacant
  have changed : x.after ≠ x.before := by
    intro same
    rw [same, vacant] at stored
    cases stored
  obtain ⟨d, hd, _, _, before, after⟩ := noted.deed sent changed
  rw [← creates.generation] at place read
  refine ⟨⟨b, place⟩, fun _ => ⟨d, hd, .requested (r := r) ?_ ?_ pending⟩⟩
  · rw [before, Accounts.request?_eq place, show x.before.accounts.get? h.address = none from vacant,
      Option.bind_none]
  · rw [after, Accounts.request?_eq place, show x.after.accounts.get? h.address = some data from stored,
      Option.bind_some, read]
    rfl

/-- Handles that calls of `submit` have returned by the end are those of requests that were made. -/
theorem Arena.handed [DecidableEq κ] {l : Ledger} {D : List Deed} (reached : l.Reached keys D)
    {calls : κ → Call} (distinct : DistinctAddresses keys) (within : ∀ j, (calls j).Over keys)
    {moves : List (Move κ)} (inside : ∀ m ∈ moves, m.Over keys) :
    let first := Arena.start l fun j => (calls j).start
    (first.run moves).ledger.Reached keys (D ++ first.annals moves) ∧
      ∀ j h, (first.run moves).Returned j (.ok h) → h.seen = true ∧ h.generation = (calls j).generation ∧
        h.Names (calls j).program (D ++ first.annals moves) := by
  intro first
  have kept := Arena.run_induction_annals (A := first) (D := D)
    (G := fun _ l D => l.Reached keys D) (I := fun j E _ d => (calls j).Standing j E d)
    (fun j E D D' d stands => stands) (fun X l D t ht reached => reached.transact ht)
    (fun j E D ms next stands => absurd stands Call.Standing.not_pause) ?_ reached
    (fun j => .unread (Call.opens distinct (within j))) inside
  · obtain ⟨after, each⟩ := kept
    refine ⟨after, fun j h returned => ?_⟩
    have stands := each j
    rw [returned] at stands
    obtain ⟨x, hx, ⟨i, sent⟩, creates⟩ := stands.created
    have noted : x.Noted (first.annals moves) :=
      (first.noted moves x (Arena.mem_asked.1 hx).1).resolve_left List.not_mem_nil
    have names := creates.names noted sent
    refine ⟨stands.seen, creates.generation, names.place, fun seen => ?_⟩
    obtain ⟨d, hd, marks⟩ := names.made seen
    exact ⟨d, List.mem_append_right D hd, marks⟩
  · intro j X E l D q next reached stands
    obtain ⟨σ, descent⟩ := reached
    obtain ⟨_, _, stands'⟩ := stands.told (within j) descent.backed
    exact ⟨Ledger.Reached.told ⟨σ, descent⟩ (stands.made (within j)), stands'⟩

end Randomness
