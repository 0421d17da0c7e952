import Mathlib.Data.List.Forall2
import Randomness.Proofs.Annals

/-!
What has become of a request: the deeds that have made, fulfilled, consumed and closed it, in this order.
-/

namespace Randomness

/-- What can happen to a request. -/
inductive Milestone where
  | requested
  | fulfilled (randomness : Block 32)
  | consumed
  | closed
  /-- Answered and removed at once. -/
  | delivered

/-- What has happened to a request, by what is left of it. -/
inductive Past : Generation → Option RequestAccount → List Milestone → Prop
  | requested {g : Generation} {r : RequestAccount} (pending : r.status = .pending) :
      Past g (some r) [.requested]
  | fulfilled {r : LegacyRequest} (fulfilled : r.status = .fulfilled) :
      Past .legacy (some (.legacy r)) [.requested, .fulfilled r.randomness]
  | consumed {r : LegacyRequest} (consumed : r.status = .consumed) :
      Past .legacy (some (.legacy r)) [.requested, .fulfilled r.randomness, .consumed]
  | closed (randomness : Block 32) : Past .legacy none [.requested, .fulfilled randomness, .consumed, .closed]
  | delivered : Past .subscription none [.requested, .delivered]

namespace Past

variable {g : Generation} {r : RequestAccount} {o : Option RequestAccount} {ms : List Milestone}

theorem made (h : Past g o ms) : ∃ rest, ms = .requested :: rest := by
  cases h <;> exact ⟨_, rfl⟩

theorem answered (h : Past g (some r) ms) (answered : r.status ≠ .pending) :
    g = .legacy ∧ ms.take 2 = [.requested, .fulfilled r.randomness] := by
  cases h with
  | requested pending => exact absurd pending answered
  | fulfilled | consumed => exact ⟨rfl, rfl⟩

end Past

variable [Crypto] {keys : Set Address} {P : Address} {id : UInt64} {g : Generation}

/-- A deed is a milestone of a request: by its instruction, and by what it finds and leaves. -/
inductive Deed.Marks (d : Deed) (P : Address) (id : UInt64) : Generation → Milestone → Prop
  | requested {g : Generation} {r : RequestAccount} (vacant : d.before.records.request? g P id = none)
      (left : d.after.records.request? g P id = some r) (pending : r.status = .pending) :
      Marks d P id g .requested
  | fulfilled {authority : Address} {randomness : Block 32} {r : LegacyRequest}
      (made : Legacy.fulfillRandomness P authority id randomness = .ok d.instruction)
      (found : d.before.records.request? .legacy P id = some (.legacy r)) (pending : r.status = .pending)
      (left : d.after.records.request? .legacy P id =
        some (.legacy { r with status := .fulfilled, randomness, fulfilledSlot := d.slot })) :
      Marks d P id .legacy (.fulfilled randomness)
  | consumed {r : LegacyRequest} (made : Legacy.consumeRandomness P r.requester id = .ok d.instruction)
      (found : d.before.records.request? .legacy P id = some (.legacy r)) (fulfilled : r.status = .fulfilled)
      (left : d.after.records.request? .legacy P id = some (.legacy { r with status := .consumed })) :
      Marks d P id .legacy .consumed
  | closed {closer : Address} {r : LegacyRequest} (made : Legacy.closeRequest P closer id = .ok d.instruction)
      (found : d.before.records.request? .legacy P id = some (.legacy r)) (consumed : r.status = .consumed)
      (gone : d.after.records.request? .legacy P id = none) : Marks d P id .legacy .closed
  | delivered {authority : Address} {stored r : WordsRequest} {randomness : Block 32}
      (names : stored.requestId = id)
      (made : Subscriptions.fulfillRandomWords P authority stored randomness = .ok d.instruction)
      (found : d.before.records.request? .subscription P id = some (.subscription r))
      (pending : r.status = .pending) (gone : d.after.records.request? .subscription P id = none)
      (told : .event (.randomWordsFulfilled ⟨id, randomness, r.consumerProgram⟩) ∈ d.log) :
      Marks d P id .subscription .delivered

theorem Accounts.request?_eq {s : Accounts} {a : Address} {b : UInt8}
    (ha : Site.address ⟨P, .request g id⟩ = .ok (a, b)) :
    s.records.request? g P id = (s.get? a).bind fun data => (RequestAccount.decode g data).toOption := by
  cases g <;> rw [Registry.request?, Accounts.records_eq ha, Option.map_bind] <;> congr 1 <;> funext data
  · change ((Kind.legacyRequest.decode data).toOption).map RequestAccount.legacy = _
    rw [RequestAccount.decode]
    cases Kind.legacyRequest.decode data <;> rfl
  · change ((Kind.wordsRequest.decode data).toOption).map RequestAccount.subscription = _
    rw [RequestAccount.decode]
    cases Kind.wordsRequest.decode data <;> rfl

/-- A deed leaves a request alone, or is one of its milestones. -/
theorem Deed.Done.marks {d : Deed} {σ τ : Registry} (h : d.Done keys σ τ) (hP : P ∈ keys) (g : Generation)
    (id : UInt64) : τ.request? g P id = σ.request? g P id ∨ ∃ m, d.Marks P id g m := by
  have before := h.before.request?_eq hP g id
  have after := h.after.request?_eq hP g id
  refine (h.handles g P id).imp_right fun handled => ?_
  obtain ⟨c, made, _, _, handles⟩ := handled
  generalize σ.request? g P id = found at before handles
  generalize τ.request? g P id = left at after handles
  cases handles with
  | requested asks fresh => exact ⟨_, .requested before after fresh.pending⟩
  | fulfilled stored proved pending => exact ⟨_, .fulfilled made before pending after⟩
  | consumed fulfilled => exact ⟨_, .consumed made before fulfilled after⟩
  | closed consumed => exact ⟨_, .closed made before consumed after⟩
  | delivered names known proved pending told =>
    exact ⟨_, .delivered names made before pending after ((told _).2 rfl)⟩

/-- Some of the deeds, in order, are these milestones of a request. -/
def Trail (D : List Deed) (P : Address) (id : UInt64) (g : Generation) (ms : List Milestone) : Prop :=
  List.SublistForall₂ (fun m d => d.Marks P id g m) ms D

namespace Trail

variable {D : List Deed} {d : Deed} {m : Milestone} {ms : List Milestone}

theorem later (h : Trail D P id g ms) (D' : List Deed) : Trail (D ++ D') P id g ms := by
  obtain ⟨E, marks, sub⟩ := List.sublistForall₂_iff.1 h
  exact List.sublistForall₂_iff.2 ⟨E, marks, sub.trans (List.sublist_append_left D D')⟩

theorem snoc (h : Trail D P id g ms) (marks : d.Marks P id g m) : Trail (D ++ [d]) P id g (ms ++ [m]) := by
  obtain ⟨E, earlier, sub⟩ := List.sublistForall₂_iff.1 h
  exact List.sublistForall₂_iff.2 ⟨E ++ [d], List.rel_append earlier (.cons marks .nil), sub.append_right [d]⟩

theorem take (h : Trail D P id g ms) (n : Nat) : Trail D P id g (ms.take n) := by
  obtain ⟨E, marks, sub⟩ := List.sublistForall₂_iff.1 h
  exact List.sublistForall₂_iff.2 ⟨E.take n, List.forall₂_take n marks, (List.take_sublist n E).trans sub⟩

theorem first (h : Trail D P id g (m :: ms)) : ∃ d ∈ D, d.Marks P id g m := by
  obtain ⟨E, marks, sub⟩ := List.sublistForall₂_iff.1 h
  cases marks with
  | cons first rest => exact ⟨_, sub.subset List.mem_cons_self, first⟩

end Trail

/-- A request has never been made, or its milestones are behind what is left of it. -/
theorem Led.past {σ : Registry} {D : List Deed} (h : Led keys σ D) (hP : P ∈ keys) (g : Generation)
    (id : UInt64) : (σ.request? g P id = none ∧ ∀ d ∈ D, ¬ d.Marks P id g .requested) ∨
      ∃ ms, Past g (σ.request? g P id) ms ∧ Trail D P id g ms := by
  induction h with
  | start => exact .inl ⟨Registry.request?_of_vacant rfl, by simp⟩
  | @snoc σ τ D d led done ih =>
    have before := done.before.request?_eq hP g id
    have after := done.after.request?_eq hP g id
    rcases done.marks hP g id with same | ⟨m, marks⟩
    · rw [same]
      refine ih.imp (fun never => ?_) fun reached => ?_
      · obtain ⟨vacant, unmade⟩ := never
        refine ⟨vacant, forall_mem_snoc unmade fun marks => ?_⟩
        cases marks with
        | requested _ left => rw [after, same, vacant] at left; cases left
      · obtain ⟨ms, past, trail⟩ := reached
        exact ⟨ms, past, trail.later [d]⟩
    · refine .inr ?_
      rw [← before] at ih
      rw [← after]
      -- Every milestone but the first one finds the request, with the earlier ones behind it.
      have there {r : RequestAccount} (found : d.before.records.request? g P id = some r) :
          ∃ ms, Past g (some r) ms ∧ Trail D P id g ms := by
        rw [found] at ih
        exact ih.resolve_left fun never => nomatch never.1
      have next {ms : List Milestone} (trail : Trail D P id g ms) : Trail (D ++ [d]) P id g (ms ++ [m]) :=
        trail.snoc marks
      cases marks with
      | requested vacant left pending =>
        rw [left]
        exact ⟨_, .requested pending, next .nil⟩
      | fulfilled made found pending left =>
        obtain ⟨ms, past, trail⟩ := there found
        rw [left]
        cases past with
        | requested => exact ⟨_, .fulfilled rfl, next trail⟩
        | fulfilled other | consumed other => simp [pending] at other
      | consumed made found fulfilled left =>
        obtain ⟨ms, past, trail⟩ := there found
        rw [left]
        cases past with
        | fulfilled => exact ⟨_, .consumed rfl, next trail⟩
        | requested other | consumed other => simp [RequestAccount.status, fulfilled] at other
      | closed made found consumed gone =>
        obtain ⟨ms, past, trail⟩ := there found
        rw [gone]
        cases past with
        | consumed => exact ⟨_, .closed _, next trail⟩
        | requested other | fulfilled other => simp [RequestAccount.status, consumed] at other
      | delivered names made found pending gone told =>
        obtain ⟨ms, past, trail⟩ := there found
        rw [gone]
        cases past with
        | requested => exact ⟨_, .delivered, next trail⟩

end Randomness
