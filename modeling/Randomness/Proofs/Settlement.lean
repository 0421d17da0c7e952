import Mathlib.Data.List.Pairwise
import Randomness.Proofs.Backing
import Randomness.Proofs.Booking

/-!
The answer of a legacy request: it comes from the one instruction that fulfills the request, and stays as it is
for as long as the request does.
-/

namespace Randomness

/-- What a command answers a legacy request with. -/
def Command.answer? (id : UInt64) : Command → Option (Block 32)
  | fulfillRandomness _ i randomness => if i = id then some randomness else none
  | _ => none

/-- What an operation answers a legacy request of the coordinator at `P` with. -/
def Operation.answer? (P : Address) (id : UInt64) (o : Operation) : Option (Block 32) :=
  (o.told? P).bind (Command.answer? id)

section

variable [Crypto] {x : Scene} {σ : Registry} {P : Address} {id : UInt64}

namespace Command.Does

variable {c : Command} {r : Registry.Result}

/-- A request is only answered by the command that says so. -/
theorem answers (h : c.Does x σ P r) {Q : Address} {old new : LegacyRequest}
    (found : σ (.legacyRequest Q id) = some old) (pending : old.status = .pending)
    (left : r.1 (.legacyRequest Q id) = some new) (answered : new.status ≠ .pending) :
    Q = P ∧ c.answer? id = some new.randomness := by
  have handled := h.handles .legacy Q id
  simp only [Registry.request?, found, left, Option.map_some, Option.some.injEq,
    RequestAccount.legacy.injEq] at handled
  rcases handled with rfl | ⟨rfl, handles⟩
  · exact absurd pending answered
  · cases handles with
    | fulfilled => exact ⟨rfl, if_pos rfl⟩
    | consumed fulfilled =>
      rw [pending] at fulfilled
      cases fulfilled

/-- A command that answers a request finds it pending. -/
theorem answered (h : c.Does x σ P r) {randomness : Block 32} (answer : c.answer? id = some randomness) :
    ∃ old, σ (.legacyRequest P id) = some old ∧ old.status = .pending ∧ r.1 (.legacyRequest P id) =
      some { old with status := .fulfilled, randomness, fulfilledSlot := x.slot } := by
  cases h with
  | fulfillRandomness stored proved found pending =>
    obtain ⟨rfl, same⟩ := Option.ite_none_right_eq_some.1 answer
    cases same
    exact ⟨_, found, pending, Registry.put_self ..⟩
  | _ => cases answer

end Command.Does

namespace Operation

variable {o : Operation} {r : Registry.Result}

theorem answers (h : o.step x σ = some r) {old new : LegacyRequest} (found : σ (.legacyRequest P id) = some old)
    (pending : old.status = .pending) (left : r.1 (.legacyRequest P id) = some new)
    (answered : new.status ≠ .pending) : o.answer? P id = some new.randomness := by
  rcases told_cases h with ⟨same, _⟩ | ⟨Q, c, tells, does⟩
  · rw [same, found] at left
    cases left
    exact absurd pending answered
  · obtain ⟨rfl, answer⟩ := does.answers found pending left answered
    rw [answer?, tells, if_pos rfl]
    exact answer

theorem answered (h : o.step x σ = some r) {randomness : Block 32} (answer : o.answer? P id = some randomness) :
    ∃ old, σ (.legacyRequest P id) = some old ∧ old.status = .pending ∧ r.1 (.legacyRequest P id) =
      some { old with status := .fulfilled, randomness, fulfilledSlot := x.slot } := by
  obtain ⟨c, told, answers⟩ := Option.bind_eq_some_iff.1 answer
  rcases told_cases h with ⟨_, nothing⟩ | ⟨Q, d, tells, does⟩
  · rw [nothing] at told
    cases told
  · rw [tells, Option.ite_none_right_eq_some] at told
    obtain ⟨rfl, same⟩ := told
    cases same
    exact does.answered answers

/-- A legacy request that stays keeps its answer, and does not become pending again. -/
theorem keeps_answer (h : o.step x σ = some r) {old new : LegacyRequest}
    (found : σ (.legacyRequest P id) = some old) (left : r.1 (.legacyRequest P id) = some new)
    (answered : old.status ≠ .pending) : new.status ≠ .pending ∧ new.randomness = old.randomness := by
  have turn := Operation.turn h .legacy P id
  simp only [Registry.request?, found, left, Option.map_some] at turn
  obtain ⟨_, later, answer⟩ := turn.becomes
  exact ⟨RequestAccount.stage_pos.2 ((RequestAccount.stage_pos.1 answered).trans_le later), (answer answered).1⟩

/-- A legacy request that appears is pending. -/
theorem appears_pending (h : o.step x σ = some r) {new : LegacyRequest}
    (vacant : σ (.legacyRequest P id) = none) (left : r.1 (.legacyRequest P id) = some new) :
    new.status = .pending ∧ id.toNat = σ.requestCount .legacy P := by
  have turn := Operation.turn h .legacy P id
  simp only [Registry.request?, vacant, left, Option.map_some, Option.map_none] at turn
  cases turn with
  | requested ask fresh => exact ⟨fresh.pending, Operation.requested_eq h ask⟩

end Operation

/-- An operation that has answered a legacy request. -/
structure Moment.Fulfills (m : Moment) (P : Address) (id : UInt64) (randomness : Block 32) : Prop where
  answer : m.operation.answer? P id = some randomness
  stored : ∃ r, m.after.records (.legacyRequest P id) = some r ∧ r.status = .fulfilled ∧
    r.randomness = randomness

/-- A history has answered a legacy request at most once, and the request has this answer as long as it is
there. -/
structure Settled (P : Address) (id : UInt64) (σ : Registry) (H : List Moment) : Prop where
  answered : ∀ r, σ (.legacyRequest P id) = some r → r.status ≠ .pending → ∃ m ∈ H, m.Fulfills P id r.randomness
  kept : ∀ m ∈ H, ∀ randomness, m.Fulfills P id randomness → id.toNat < σ.requestCount .legacy P ∧
    ∀ r, σ (.legacyRequest P id) = some r → r.status ≠ .pending
  once : H.Pairwise fun m n => ∀ p q, m.Fulfills P id p → ¬ n.Fulfills P id q

/-- A legacy request has an id below the counter. -/
theorem Backed.below {keys : Set Address} {s : Accounts} {slot : UInt64} (h : Backed keys s σ slot)
    {r : LegacyRequest} (found : σ (.legacyRequest P id) = some r) : id.toNat < σ.requestCount .legacy P := by
  have request : σ.request? .legacy P id = some (.legacy r) := by rw [Registry.request?, found]; rfl
  exact (h.sound .legacy P id _ request).2

namespace Settled

variable {o : Operation} {τ : Registry} {log : List LogEntry} {H : List Moment}

theorem start : Settled P id Registry.empty [] where
  answered := by
    intro r h
    cases h
  kept := by simp
  once := .nil

/-- An operation that does not answer the request keeps what is known of its answer. -/
theorem step (h : Settled P id σ H) (stepped : o.step x σ = some (τ, log)) (silent : o.answer? P id = none) :
    Settled P id τ H where
  answered r left answered := by
    cases found : σ (.legacyRequest P id) with
    | none => exact absurd (Operation.appears_pending stepped found left).1 answered
    | some old =>
      by_cases pending : old.status = .pending
      · have answer := Operation.answers stepped found pending left answered
        rw [silent] at answer
        cases answer
      · rw [(Operation.keeps_answer stepped found left pending).2]
        exact h.answered old found pending
  kept m hm randomness fulfills := by
    obtain ⟨below, kept⟩ := h.kept m hm randomness fulfills
    have counts : τ.requestCount .legacy P = σ.requestCount .legacy P + _ := Operation.counts stepped .legacy P
    refine ⟨by omega, fun r left => ?_⟩
    cases found : σ (.legacyRequest P id) with
    | none => exact absurd (Operation.appears_pending stepped found left).2 below.ne
    | some old => exact (Operation.keeps_answer stepped found left (kept old found)).1
  once := h.once

theorem snoc {m : Moment} (h : Settled P id σ H) (silent : m.operation.answer? P id = none) :
    Settled P id σ (H ++ [m]) := by
  have none (q : Block 32) : ¬ m.Fulfills P id q := by
    intro fulfills
    have answer := fulfills.answer
    rw [silent] at answer
    cases answer
  refine ⟨fun r found answered => ?_, ?_, ?_⟩
  · obtain ⟨n, hn, fulfills⟩ := h.answered r found answered
    exact ⟨n, List.mem_append_left _ hn, fulfills⟩
  · exact forall_mem_snoc h.kept fun q fulfills => absurd fulfills (none q)
  · exact pairwise_snoc h.once fun n _ p q _ => none q

/-- An operation that answers the request is the first one. -/
theorem fulfill {m : Moment} {q : Block 32} (h : Settled P id σ H)
    (below : ∀ r, σ (.legacyRequest P id) = some r → id.toNat < σ.requestCount .legacy P)
    (stepped : m.operation.step x σ = some (τ, log)) (answer : m.operation.answer? P id = some q)
    (after : m.after.records (.legacyRequest P id) = τ (.legacyRequest P id)) : Settled P id τ (H ++ [m]) := by
  obtain ⟨old, found, pending, left⟩ := Operation.answered stepped answer
  change τ (.legacyRequest P id) = _ at left
  have none (n : Moment) (hn : n ∈ H) (p : Block 32) : ¬ n.Fulfills P id p :=
    fun fulfills => (h.kept n hn p fulfills).2 old found pending
  have counts : τ.requestCount .legacy P = σ.requestCount .legacy P + _ := Operation.counts stepped .legacy P
  have fulfills : m.Fulfills P id q := ⟨answer, _, after.trans left, rfl, rfl⟩
  refine ⟨fun r hr _ => ?_, forall_mem_snoc (fun n hn p other => absurd other (none n hn p)) ?_,
    pairwise_snoc h.once fun n hn p _ other => absurd other (none n hn p)⟩
  · rw [left] at hr
    cases hr
    exact ⟨m, List.mem_append_right H List.mem_cons_self, fulfills⟩
  · intro p _
    have earlier := below old found
    refine ⟨by omega, fun r hr => ?_⟩
    rw [left] at hr
    cases hr
    exact nofun

/-- What an executed operation makes of it. -/
theorem record {keys : Set Address} {y : Surroundings} {s s' : Accounts} (h : Settled P id σ H)
    (backed : Backed keys s σ y.slot) (hP : P ∈ keys) (fits : Fits keys s' τ)
    (stepped : o.step y.scene σ = some (τ, log)) : Settled P id τ (H ++ [⟨o, y.slot, s, s'⟩]) := by
  cases answer : o.answer? P id with
  | none => exact (h.step stepped answer).snoc answer
  | some q =>
    have after : s'.records (.legacyRequest P id) = τ (.legacyRequest P id) :=
      (backed.step fits stepped).records_eq (by simpa using hP)
    exact h.fulfill (fun r found => backed.below found) stepped answer after

/-- There is only one answer. -/
theorem unique (h : Settled P id σ H) {m n : Moment} (hm : m ∈ H) (hn : n ∈ H) {p q : Block 32}
    (first : m.Fulfills P id p) (second : n.Fulfills P id q) : p = q := by
  by_cases same : m = n
  · subst same
    exact Option.some.inj (first.answer.symm.trans second.answer)
  · let apart (m n : Moment) : Prop := ¬ ((∃ p, m.Fulfills P id p) ∧ ∃ q, n.Fulfills P id q)
    have _ : Std.Symm apart := ⟨fun _ _ h held => h held.symm⟩
    have pairs : H.Pairwise apart := h.once.imp fun once held => once _ _ held.1.choose_spec held.2.choose_spec
    exact absurd ⟨⟨p, first⟩, q, second⟩ (pairs.forall hm hn same)

end Settled

section

variable {keys : Set Address}

/-- The records of a ledger with a history, and what the history says about one legacy request. -/
theorem Ledger.settled (distinct : DistinctAddresses keys) (hP : P ∈ keys) (ts : List Submission)
    (past : ∀ t ∈ ts, t.Over keys) : ∃ σ, Backed keys (history ts).1.accounts σ (history ts).1.slot ∧
      Settled P id σ (history ts).2 := by
  obtain ⟨σ, _, held⟩ := history_induction (C := fun s σ slot H => Backed keys s σ slot ∧ Settled P id σ H)
    (fun x s σ H o τ log s' h _ fits _ stepped => ⟨h.1.step fits stepped, h.2.record h.1 hP fits stepped⟩)
    (fun s σ slot slot' H le h => ⟨h.1.later le, h.2⟩) distinct ⟨.empty distinct, .start⟩ ts past
  exact ⟨σ, held⟩

/-- A legacy request that was answered once has this answer for as long as it is there. -/
theorem Ledger.answer_stays (distinct : DistinctAddresses keys) (hP : P ∈ keys) (id : UInt64)
    (ts us : List Submission) (past : ∀ t ∈ ts ++ us, t.Over keys) : ∃ σ τ,
      Backed keys (history ts).1.accounts σ (history ts).1.slot ∧
      Backed keys (history (ts ++ us)).1.accounts τ (history (ts ++ us)).1.slot ∧
      ∀ old new, σ (.legacyRequest P id) = some old → old.status ≠ .pending →
        τ (.legacyRequest P id) = some new → new.status ≠ .pending ∧ new.randomness = old.randomness := by
  have earlier : ∀ t ∈ ts, t.Over keys := fun t ht => past t (List.mem_append_left us ht)
  obtain ⟨σ, backed, before⟩ := settled distinct hP ts earlier
  obtain ⟨τ, backed', settled'⟩ := settled distinct hP (ts ++ us) past
  refine ⟨σ, τ, backed, backed', fun old new found answered left => ?_⟩
  obtain ⟨m, hm, fulfills⟩ := before.answered old found answered
  have hm := (history_grows ts us).subset hm
  have stays := (settled'.kept m hm _ fulfills).2 new left
  obtain ⟨n, hn, fulfills'⟩ := settled'.answered new left stays
  exact ⟨stays, settled'.unique hn hm fulfills' fulfills⟩

end

end

end Randomness
