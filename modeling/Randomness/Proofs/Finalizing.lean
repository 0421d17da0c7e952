import Randomness.Proofs.Arena
import Randomness.Proofs.Finalization
import Randomness.Proofs.Kinds
import Randomness.Proofs.Settlement

/-!
Calls of `finalize` that race for one legacy request: one of them at most closes it, and returns its answer.
-/

namespace Randomness

/-- A transaction that makes the fulfilled request at an address consumed, and changes no other account. -/
structure Exchange.Consumes (x : Exchange ι) (a : Address) : Prop where
  sent : ∃ is signers, x.question = .submit is signers
  request : ∃ r : LegacyRequest, x.before.get? a = some (Kind.legacyRequest.encode r) ∧ r.status = .fulfilled ∧
    x.after.get? a = some (Kind.legacyRequest.encode { r with status := .consumed })
  others : ∀ c, c ≠ a → x.after.get? c = x.before.get? c

/-- A transaction that removes the consumed request at an address, and changes no other account. -/
structure Exchange.Closes (x : Exchange ι) (a : Address) : Prop where
  sent : ∃ is signers, x.question = .submit is signers
  request : ∃ r : LegacyRequest, x.before.get? a = some (Kind.legacyRequest.encode r) ∧ r.status = .consumed
  gone : x.after.get? a = none
  others : ∀ c, c ≠ a → x.after.get? c = x.before.get? c

/-- All that these exchanges do is to consume the request at an address, and only one of them can. -/
structure Tame (a : Address) (E : List (Exchange ι)) : Prop where
  each : ∀ x ∈ E, x.after = x.before ∨ x.Consumes a
  single : E.Pairwise fun x y => x.after = x.before ∨ y.after = y.before

namespace Tame

variable {a : Address} {E : List (Exchange ι)} {x : Exchange ι}

theorem of_same (same : ∀ x ∈ E, x.after = x.before) : Tame a E :=
  ⟨fun x hx => .inl (same x hx), List.pairwise_of_forall_mem_list fun x hx _ _ => .inl (same x hx)⟩

theorem snoc (h : Tame a E) (same : x.after = x.before) : Tame a (E ++ [x]) :=
  ⟨forall_mem_snoc h.each (.inl same), pairwise_snoc h.single fun _ _ => .inr same⟩

theorem consume (same : ∀ x ∈ E, x.after = x.before) (consumes : x.Consumes a) : Tame a (E ++ [x]) :=
  ⟨forall_mem_snoc (of_same same).each (.inr consumes),
    pairwise_snoc (of_same (a := a) same).single fun y hy => .inl (same y hy)⟩

end Tame

section

variable [Crypto] {keys : Set Address} {ι : Type} {P a : Address} {id : UInt64} {b : UInt8} {σ τ : Registry}

/-- What is read at the address of a legacy request is the request. -/
theorem Backed.request_read {s : Accounts} {slot : UInt64} (h : Backed keys s σ slot) (hP : P ∈ keys)
    (ha : (Site.legacyRequest P id).address = .ok (a, b)) {g : Generation} {data : Bytes}
    (found : s.get? a = some data) {r : RequestAccount} (read : RequestAccount.decode g data = .ok r) :
    P ≠ Instruction.signatureProgram ∧ ∃ q, σ (.legacyRequest P id) = some q ∧ r = .legacy q ∧
      data = Kind.legacyRequest.encode q ∧ q.requestId = id := by
  rw [h.fits.get?_eq (t := .legacyRequest P id) (by simpa using hP) ha] at found
  obtain ⟨q, stored, rfl⟩ := Option.map_eq_some_iff.1 found
  refine ⟨h.proper stored, q, stored, ?_, rfl, (h.fits.owned (.legacyRequest P id) q stored).1⟩
  cases g with
  | legacy =>
    rw [RequestAccount.decode, Kind.decode_encode .legacyRequest q trivial] at read
    exact (Except.ok.inj read).symm
  | subscription =>
    obtain ⟨e, unread⟩ :=
      (Kind.exists_error_iff (k := .legacyRequest) (l := .wordsRequest) (by decide) q).2 fun h => h
    rw [RequestAccount.decode, show Kind.wordsRequest.decode _ = .error e from unread] at read
    cases read

/-- What a ledger, its others' history and all exchanges with it say about one legacy request. -/
structure Course (P : Address) (id : UInt64) (a : Address) (X : List (Exchange ι)) (σ : Registry)
    (H : List Moment) : Prop where
  settled : Settled P id σ H
  seen : ∀ x ∈ X, ∀ r : LegacyRequest, x.before.get? a = some (Kind.legacyRequest.encode r) →
    r.status ≠ .pending → ∃ m ∈ H, m.Fulfills P id r.randomness
  gone : ∀ x ∈ X, x.Closes a → id.toNat < σ.requestCount .legacy P ∧ σ (.legacyRequest P id) = none
  single : X.Pairwise fun x y => x.Closes a → ¬ y.Closes a

namespace Course

variable {X : List (Exchange ι)} {H : List Moment} {x : Scene} {o : Operation} {log : List LogEntry}

theorem start (settled : Settled P id σ H) : Course P id a ([] : List (Exchange ι)) σ H where
  settled := settled
  seen := by simp
  gone := by simp
  single := .nil

/-- A request that is gone does not come back. -/
theorem still_gone (h : Course P id a X σ H) (stepped : o.step x σ = some (τ, log)) {y : Exchange ι}
    (hy : y ∈ X) (closes : y.Closes a) : id.toNat < τ.requestCount .legacy P ∧ τ (.legacyRequest P id) = none := by
  obtain ⟨below, vacant⟩ := h.gone y hy closes
  have counts : τ.requestCount .legacy P = σ.requestCount .legacy P + _ := Operation.counts stepped .legacy P
  refine ⟨by omega, ?_⟩
  cases left : τ (.legacyRequest P id) with
  | none => rfl
  | some r => exact absurd (Operation.appears_pending stepped vacant left).2 below.ne

theorem step (h : Course P id a X σ H) (stepped : o.step x σ = some (τ, log))
    (silent : o.answer? P id = none) : Course P id a X τ H :=
  { h with
    settled := h.settled.step stepped silent
    gone := fun _ hy closes => h.still_gone stepped hy closes }

theorem record {y : Surroundings} {s s' : Accounts} (h : Course P id a X σ H)
    (backed : Backed keys s σ y.slot) (hP : P ∈ keys) (fits : Fits keys s' τ)
    (stepped : o.step y.scene σ = some (τ, log)) : Course P id a X τ (H ++ [⟨o, y.slot, s, s'⟩]) where
  settled := h.settled.record backed hP fits stepped
  seen z hz r read answered := by
    obtain ⟨m, hm, fulfills⟩ := h.seen z hz r read answered
    exact ⟨m, List.mem_append_left _ hm, fulfills⟩
  gone _ hz closes := h.still_gone stepped hz closes
  single := h.single

/-- One more exchange. -/
theorem snoc {y : Exchange ι} (h : Course P id a X σ H) (after : Course P id a X τ H) (hP : P ∈ keys)
    (ha : (Site.legacyRequest P id).address = .ok (a, b))
    (backed : Backed keys y.before.accounts σ y.before.slot)
    (backed' : Backed keys y.after.accounts τ y.after.slot)
    (grown : σ.requestCount .legacy P ≤ τ.requestCount .legacy P) : Course P id a (X ++ [y]) τ H := by
  have within : (Site.legacyRequest P id).Over keys := by simpa using hP
  have stored (r : LegacyRequest) (read : y.before.get? a = some (Kind.legacyRequest.encode r)) :
      σ (.legacyRequest P id) = some r := by
    obtain ⟨q, stored, decoded⟩ := backed.get?_eq_some within ha read
    rw [Kind.decode_encode .legacyRequest r trivial] at decoded
    cases decoded
    exact stored
  refine ⟨after.settled, forall_mem_snoc h.seen ?_, forall_mem_snoc after.gone ?_, pairwise_snoc h.single ?_⟩
  · exact fun r read answered => h.settled.answered r (stored r read) answered
  · intro closes
    obtain ⟨r, read, _⟩ := closes.request
    refine ⟨(backed.below (stored r read)).trans_le grown, ?_⟩
    have gone := closes.gone
    rw [Ledger.get?, backed'.fits.get?_eq within ha] at gone
    exact Option.map_eq_none_iff.1 gone
  · intro z hz closed closes
    obtain ⟨r, read, _⟩ := closes.request
    have vacant := (h.gone z hz closed).2
    rw [stored r read] at vacant
    cases vacant

/-- What anyone else executes. -/
theorem after {l : Ledger} {t : Submission} (h : Course P id a X σ H) (backed : Backed keys l.accounts σ l.slot)
    (hP : P ∈ keys) (inside : t.Over keys) :
    ∃ τ, Backed keys (l.after t).1.accounts τ (l.after t).1.slot ∧ Course P id a X τ (H ++ (l.after t).2) := by
  obtain ⟨τ, _, after⟩ := Ledger.after_induction
    (C := fun s τ slot H => Backed keys s τ slot ∧ Course P id a X τ H)
    (fun x s σ H o τ log s' h _ fits _ stepped => ⟨h.1.step fits stepped, h.2.record h.1 hP fits stepped⟩)
    (fun s σ slot slot' H le h => ⟨h.1.later le, h.2⟩) inside backed.fits ⟨backed, h⟩
  exact ⟨τ, after⟩

/-- Asking for an account changes nothing. -/
theorem look {l : Ledger} {k : ι} {c : Address} {answer : Except Crash (Except LedgerError (Option Bytes))}
    (h : Course P id a X σ H) (hP : P ∈ keys)
    (ha : (Site.legacyRequest P id).address = .ok (a, b)) (backed : Backed keys l.accounts σ l.slot) :
    Course P id a (X ++ [⟨k, l, l, .account c, answer⟩]) σ H :=
  h.snoc h hP ha backed backed le_rfl

end Course

namespace Command.Does

variable {x : Scene} {y : Exchange ι} {requester : Address} {log : List LogEntry} (hP : P ∈ keys)
  (ha : (Site.legacyRequest P id).address = .ok (a, b)) (sent : ∃ is signers, y.question = .submit is signers)
  (backed : Backed keys y.before.accounts σ y.before.slot)
  (backed' : Backed keys y.after.accounts τ y.after.slot)

include hP ha sent backed backed'

theorem consumes (h : (Command.consumeRandomness requester id).Does x σ P (τ, log)) : y.Consumes a := by
  have within : (Site.legacyRequest P id).Over keys := by simpa using hP
  cases h with
  | consumeRandomness found own fulfilled =>
    refine ⟨sent, ⟨_, ?_, fulfilled, ?_⟩, fun c hc => ?_⟩
    · rw [Ledger.get?, backed.fits.get?_eq within ha, found]
      rfl
    · rw [Ledger.get?, backed'.fits.get?_eq within ha, Registry.put_self]
      rfl
    · exact backed.fits.toMatches.get?_eq_of_ne backed'.fits.toMatches ha
        (fun u hu => Registry.put_of_ne _ _ hu) hc

theorem closes (h : (Command.closeRequest requester id).Does x σ P (τ, log)) : y.Closes a := by
  have within : (Site.legacyRequest P id).Over keys := by simpa using hP
  cases h with
  | closeRequest found consumed =>
    refine ⟨sent, ⟨_, ?_, consumed⟩, ?_, fun c hc => ?_⟩
    · rw [Ledger.get?, backed.fits.get?_eq within ha, found]
      rfl
    · rw [Ledger.get?, backed'.fits.get?_eq within ha, Registry.drop_self]
      rfl
    · exact backed.fits.toMatches.get?_eq_of_ne backed'.fits.toMatches ha
        (fun u hu => Registry.drop_of_ne _ hu) hc

end Command.Does

namespace Finalization

/-- How a call on the request at `a` stands with what it has asked. -/
inductive Standing (f : Finalization) (id : UInt64) (a : Address) :
    List (Exchange ι) → Except Crash Rest → Prop
  | looking {d : Rest} (looks : f.Looking d) : Standing f id a [] (.ok d)
  | failed {E : List (Exchange ι)} {d : Rest} (tame : Tame a E) (fails : Fails d) : Standing f id a E (.ok d)
  | crashed {E : List (Exchange ι)} (tame : Tame a E) (c : Crash) : Standing f id a E (.error c)
  | reading {E : List (Exchange ι)} {d : Rest} (proper : f.program ≠ Instruction.signatureProgram)
      (same : ∀ x ∈ E, x.after = x.before) (reads : f.Reading id d) : Standing f id a E (.ok d)
  | consuming {E : List (Exchange ι)} {d : Rest} (proper : f.program ≠ Instruction.signatureProgram)
      (same : ∀ x ∈ E, x.after = x.before) (sends : f.Consuming id d) : Standing f id a E (.ok d)
  | checking {E : List (Exchange ι)} {d : Rest} (proper : f.program ≠ Instruction.signatureProgram)
      (tame : Tame a E) (reads : f.Checking id d) : Standing f id a E (.ok d)
  | closing {E : List (Exchange ι)} {d : Rest} {x : Exchange ι} {r : LegacyRequest}
      (proper : f.program ≠ Instruction.signatureProgram) (tame : Tame a E) (hx : x ∈ E)
      (read : x.before.get? a = some (Kind.legacyRequest.encode r)) (consumed : r.status = .consumed)
      (sends : f.Closing id r.randomness d) : Standing f id a E (.ok d)
  | closed {E : List (Exchange ι)} {x y : Exchange ι} {r : LegacyRequest} (tame : Tame a E) (hx : x ∈ E)
      (read : x.before.get? a = some (Kind.legacyRequest.encode r)) (consumed : r.status = .consumed)
      (closes : y.Closes a) : Standing f id a (E ++ [y]) (.ok (.done (.ok r.randomness)))

variable {f : Finalization} {X E : List (Exchange ι)} {H : List Moment} {l : Ledger} {k : ι}

omit [Crypto] in
/-- The answer to a question for the request is a record, or the call fails. -/
theorem reads_told {g : Generation} (goes : RequestAccount → Rest → Prop)
    {next : Except LedgerError (Option Bytes) → Rest}
    (found : ∀ data r, RequestAccount.decode g data = .ok r → Fails (next (.ok (some data))) ∨
      goes r (next (.ok (some data))))
    (otherwise : ∀ a, (∀ data r, a = .ok (some data) → RequestAccount.decode g data ≠ .ok r) → Fails (next a))
    (o : Option Bytes) : Fails (next (.ok o)) ∨
      ∃ data r, o = some data ∧ RequestAccount.decode g data = .ok r ∧ goes r (next (.ok o)) := by
  by_cases read : ∃ data r, o = some data ∧ RequestAccount.decode g data = .ok r
  · obtain ⟨data, r, rfl, read⟩ := read
    exact (found data r read).imp_right fun goes => ⟨data, r, rfl, read, goes⟩
  · refine .inl (otherwise _ fun data r same unread => read ⟨data, r, ?_, unread⟩)
    exact Except.ok.inj same

/-- A command about a legacy request, sent by a call, changes nothing or is carried out. -/
theorem sent_told {P : Address} {c : Command} (hP : P ∈ keys)
    (ha : (Site.legacyRequest P id).address = .ok (a, b)) (proper : P ≠ Instruction.signatureProgram)
    (names : c.consumer? = none) (silent : c.answer? id = none)
    (backed : Backed keys l.accounts σ l.slot) (course : Course P id a X σ H) {i : Instruction}
    (made : c.instruction P = .ok i) (signers : List Address) (k : ι) :
    let r := l.told (.submit [i] signers)
    let y : Exchange ι := ⟨k, l, r.1, .submit [i] signers, r.2⟩
    (∃ τ, Backed keys r.1.accounts τ r.1.slot ∧ Course P id a (X ++ [y]) τ H) ∧
      ((y.after = y.before ∧ ∀ x, r.2 ≠ .ok (.ok x)) ∨ ∃ x z τ log, r.2 = .ok (.ok x) ∧ c.Does z σ P (τ, log) ∧
        Backed keys y.after.accounts τ y.after.slot) := by
  intro r y
  have inside : (Operation.command P c).Over keys := ⟨hP, by simp [names]⟩
  rcases Ledger.told_one backed inside made signers with
    ⟨same, failed⟩ | ⟨x, z, τ, log, accepted, stepped, backed'⟩
  · have stays : Backed keys y.after.accounts σ y.after.slot := by
      change Backed keys r.1.accounts σ r.1.slot
      rwa [show r.1 = l from same]
    exact ⟨⟨σ, stays, course.snoc course hP ha backed stays le_rfl⟩, .inl ⟨same, failed⟩⟩
  · have answer : (Operation.command P c).answer? P id = none := by
      rw [Operation.answer?, Operation.told?_command proper, if_pos rfl]
      exact silent
    have grown : σ.requestCount .legacy P ≤ τ.requestCount .legacy P := by
      rw [Operation.counts stepped .legacy P]
      exact Nat.le_add_right _ _
    refine ⟨⟨τ, backed', course.snoc (course.step stepped answer) hP ha backed backed' grown⟩, .inr ?_⟩
    exact ⟨x, z, τ, log, accepted, Operation.does_of_step proper stepped, backed'⟩

/-- A transaction that is not carried out ends a call. -/
theorem Standing.refused {next : Except LedgerError Execution → Rest}
    {answer : Except Crash (Except LedgerError Execution)} (tame : Tame a E)
    (refused : ∀ e, Fails (next (.error e))) (failed : ∀ x, answer ≠ .ok (.ok x)) :
    Standing f id a E (answer.map next) := by
  rcases answer with c | e | x
  · exact .crashed tame c
  · exact .failed tame (refused e)
  · exact absurd rfl (failed x)

/-- A call stays in order with each question. -/
theorem Standing.told (hP : f.program ∈ keys)
    (ha : (Site.legacyRequest f.program id).address = .ok (f.handle.address, b))
    (backed : Backed keys l.accounts σ l.slot) (course : Course f.program id f.handle.address X σ H)
    {q : LedgerRequest} {next : q.Answer → Rest}
    (stands : Standing f id f.handle.address E (.ok (.ask q next))) :
    let x : Exchange ι := ⟨k, l, (l.told q).1, q, (l.told q).2⟩
    (∃ τ, Backed keys (l.told q).1.accounts τ (l.told q).1.slot ∧
        Course f.program id f.handle.address (X ++ [x]) τ H) ∧
      Standing f id f.handle.address (E ++ [x]) ((l.told q).2.map next) := by
  intro x
  cases stands with
  | looking looks =>
    cases looks with
    | ask found otherwise =>
      rename_i next
      refine ⟨⟨σ, backed, course.look hP ha backed⟩, ?_⟩
      have same : ∀ y ∈ [x], y.after = y.before := by simp [x, Ledger.told]
      rcases reads_told (fun r d => f.Reading r.requestId d) found otherwise (l.get? f.handle.address) with
        fails | ⟨data, r, held, read, reads⟩
      · exact .failed (.of_same same) fails
      · obtain ⟨proper, q, _, rfl, _, own⟩ := backed.request_read hP ha held read
        rw [show RequestAccount.requestId (.legacy q) = id from own] at reads
        exact .reading proper same reads
  | failed tame fails =>
    obtain ⟨e, ended⟩ := fails
    cases ended
  | reading proper same reads =>
    cases reads with
    | ask found otherwise =>
      rename_i next
      refine ⟨⟨σ, backed, course.look hP ha backed⟩, ?_⟩
      have same' : ∀ y ∈ E ++ [x], y.after = y.before := forall_mem_snoc same rfl
      rcases reads_told (fun _ d => f.Consuming id d ∨ f.Checking id d) found otherwise
        (l.get? f.handle.address) with fails | ⟨data, r, held, read, goes⟩
      · exact .failed (.of_same same') fails
      · rcases goes with consumes | checks
        · exact .consuming proper same' consumes
        · exact .checking proper (.of_same same') checks
  | consuming proper same sends =>
    cases sends with
    | ask made refused accepted =>
      rename_i i next
      obtain ⟨after, done⟩ := sent_told hP ha proper rfl rfl backed course made [f.requester] k
      refine ⟨after, ?_⟩
      rcases done with ⟨still, failed⟩ | ⟨e, z, τ, log, executed, does, backed'⟩
      · exact .refused ((Tame.of_same same).snoc still) refused failed
      · have consumes : x.Consumes f.handle.address := does.consumes hP ha ⟨_, _, rfl⟩ backed backed'
        rw [executed]
        exact .checking proper (.consume same consumes) (accepted e)
  | checking proper tame reads =>
    cases reads with
    | ask found otherwise =>
      rename_i next
      refine ⟨⟨σ, backed, course.look hP ha backed⟩, ?_⟩
      have tame' : Tame f.handle.address (E ++ [x]) := tame.snoc rfl
      rcases reads_told (fun r d => r.status = .consumed ∧ f.Closing id r.randomness d) found otherwise
        (l.get? f.handle.address) with fails | ⟨data, r, held, read, goes⟩
      · exact .failed tame' fails
      · obtain ⟨_, q, _, rfl, rfl, _⟩ := backed.request_read hP ha held read
        exact .closing proper tame' (List.mem_append_right E List.mem_cons_self) held goes.1 goes.2
  | closing proper tame hx read consumed sends =>
    cases sends with
    | ask made refused accepted =>
      rename_i i next
      obtain ⟨after, done⟩ := sent_told hP ha proper rfl rfl backed course made [f.requester] k
      refine ⟨after, ?_⟩
      rcases done with ⟨still, failed⟩ | ⟨e, z, τ, log, executed, does, backed'⟩
      · exact .refused (tame.snoc still) refused failed
      · have closes : x.Closes f.handle.address := does.closes hP ha ⟨_, _, rfl⟩ backed backed'
        rw [executed]
        have returned : next (.ok e) = .done (.ok _) := accepted e
        change Standing f id _ _ (.ok (next (.ok e)))
        rw [returned]
        exact .closed tame hx read consumed closes

theorem Standing.not_pause {ms : Nat} {next : Rest} : ¬ Standing f id a E (.ok (.pause ms next)) := by
  intro stands
  cases stands with
  | failed tame fails =>
    obtain ⟨e, ended⟩ := fails
    cases ended
  | looking stage | reading _ _ stage | consuming _ _ stage | checking _ _ stage | closing _ _ _ _ _ stage =>
    cases stage

/-- A call asks for accounts, or sends one command with its requester's signature. -/
theorem Standing.asks {q : LedgerRequest} {next : q.Answer → Rest}
    (stands : Standing f id a E (.ok (.ask q next))) : (∃ b, q = .account b) ∨ ∃ c : Command, ∃ i,
      c.consumer? = none ∧ c.instruction f.program = .ok i ∧ q = .submit [i] [f.requester] := by
  cases stands with
  | looking stage | reading _ _ stage | checking _ _ stage =>
    cases stage
    exact .inl ⟨_, rfl⟩
  | consuming _ _ stage =>
    cases stage with
    | ask made => exact .inr ⟨_, _, rfl, made, rfl⟩
  | closing _ _ _ _ _ stage =>
    cases stage with
    | ask made => exact .inr ⟨_, _, rfl, made, rfl⟩
  | failed tame fails =>
    obtain ⟨e, ended⟩ := fails
    cases ended

/-- Who returns a randomness has read it from the consumed request, and closed the request. -/
theorem Standing.returned {randomness : Block 32} (stands : Standing f id a E (.ok (.done (.ok randomness)))) :
    ∃ E' y, E = E' ++ [y] ∧ Tame a E' ∧ y.Closes a ∧ ∃ x ∈ E', ∃ r : LegacyRequest,
      x.before.get? a = some (Kind.legacyRequest.encode r) ∧ r.status = .consumed ∧
        r.randomness = randomness := by
  cases stands with
  | failed tame fails =>
    obtain ⟨e, ended⟩ := fails
    cases ended
  | looking stage | reading _ _ stage | consuming _ _ stage | checking _ _ stage | closing _ _ _ _ _ stage =>
    cases stage
  | closed tame hx read consumed closes => exact ⟨_, _, rfl, tame, closes, _, hx, _, read, consumed, rfl⟩

/-- Who has not returned one has at most consumed the request. -/
theorem Standing.tame {d : Except Crash Rest} (stands : Standing f id a E d)
    (none : ∀ randomness, d ≠ .ok (.done (.ok randomness))) : Tame a E := by
  cases stands with
  | looking => exact .of_same (by simp)
  | reading _ same | consuming _ same => exact .of_same same
  | failed tame | crashed tame | checking _ tame | closing _ tame => exact tame
  | closed => exact absurd rfl (none _)

variable [DecidableEq ι]

/-- Calls that are under way on one legacy request, on a ledger that transactions have led to. -/
structure Rivals (keys : Set Address) (P : Address) (id : UInt64) (a : Address) (calls : ι → Finalization)
    (A : Arena ι (Except ClientError (Block 32))) (H : List Moment) : Prop where
  course : ∃ σ, Backed keys A.ledger.accounts σ A.ledger.slot ∧ Course P id a A.exchanges σ H
  stands : ∀ k, (calls k).Standing id a (A.asked k) (A.talks k)

namespace Rivals

variable {calls : ι → Finalization} {A : Arena ι (Except ClientError (Block 32))}

theorem start (distinct : DistinctAddresses keys) (ts : List Submission) (past : ∀ t ∈ ts, t.Over keys)
    (hP : P ∈ keys) (calls : ι → Finalization) :
    Rivals keys P id a calls (Arena.start (Ledger.history ts).1 fun k => (calls k).start)
      (Ledger.history ts).2 where
  course := by
    obtain ⟨σ, backed, settled⟩ := Ledger.settled distinct hP ts past
    exact ⟨σ, backed, .start settled⟩
  stands k := .looking (calls k).looks

/-- The calls stay in order, whatever the next moves are. -/
theorem run (h : Rivals keys P id a calls A H) (hP : P ∈ keys)
    (ha : (Site.legacyRequest P id).address = .ok (a, b))
    (on : ∀ k, (calls k).program = P ∧ (calls k).handle.address = a) {moves : List (Move ι)}
    (inside : ∀ m ∈ moves, m.Over keys) : Rivals keys P id a calls (A.run moves) (H ++ A.others moves) ∧
      A.exchanges <+: (A.run moves).exchanges := by
  have kept := Arena.run_induction_others (A := A) (n := fun _ => 0) (H := H)
    (G := fun X l H => (∃ σ, Backed keys l.accounts σ l.slot ∧ Course P id a X σ H) ∧ A.exchanges <+: X)
    (I := fun k _ E d => (calls k).Standing id a E d)
    ?_ ?_ ?_ ?_ ⟨h.course, List.prefix_rfl⟩ h.stands inside
  · obtain ⟨⟨course, more⟩, stands⟩ := kept
    exact ⟨⟨course, stands⟩, more⟩
  · intro X l H t ht held
    obtain ⟨⟨σ, backed, course⟩, more⟩ := held
    exact ⟨course.after backed hP ht, more⟩
  · exact fun k n E d _ stands => stands
  · exact fun k n E ms next stands => absurd stands Standing.not_pause
  · intro k n X E l H q next held stands
    obtain ⟨⟨σ, backed, course⟩, more⟩ := held
    obtain ⟨rfl, rfl⟩ := on k
    obtain ⟨after, stands'⟩ := stands.told hP ha backed course
    exact ⟨⟨after, more.trans (List.prefix_append ..)⟩, stands'⟩

end Rivals

end Finalization

open Finalization in
/-- A legacy request is finalized at most once, and with its answer. Whatever transactions have led to the
ledger, and however the calls and other transactions interleave: at most one call returns a randomness, which is
what the request's only fulfillment has stored; this call's last step closes the request, which never exists
again; and a call that returns nothing has done nothing to the ledger but to consume the request once. -/
theorem Arena.finalized_once [DecidableEq ι] (distinct : DistinctAddresses keys) (ts : List Submission)
    (past : ∀ t ∈ ts, t.Over keys) (hP : P ∈ keys) (ha : (Site.legacyRequest P id).address = .ok (a, b))
    (calls : ι → Finalization) (on : ∀ k, (calls k).program = P ∧ (calls k).handle.address = a)
    (moves : List (Move ι)) (inside : ∀ m ∈ moves, m.Over keys) :
    let first := Arena.start (Ledger.history ts).1 fun k => (calls k).start
    let A := first.run moves
    let H := (Ledger.history ts).2 ++ first.others moves
    (∀ j k p q, A.Returned j (.ok p) → A.Returned k (.ok q) → j = k) ∧
    (∀ k q, A.Returned k (.ok q) → ((∃ m ∈ H, m.Fulfills P id q) ∧
        H.Pairwise fun m n => ∀ p p', m.Fulfills P id p → ¬ n.Fulfills P id p') ∧
      (∃ E y, A.asked k = E ++ [y] ∧ Tame a E ∧ y.Closes a) ∧
      ∀ next : List (Move ι), (∀ m ∈ next, m.Over keys) → (A.run next).ledger.get? a = none) ∧
    ∀ k, (∀ q, ¬ A.Returned k (.ok q)) → Tame a (A.asked k) := by
  intro first A H
  have rivals : Rivals keys P id a calls A H := ((Rivals.start distinct ts past hP calls).run hP ha on inside).1
  obtain ⟨σ, backed, course⟩ := rivals.course
  have closed (k : ι) (q : Block 32) (returned : A.Returned k (.ok q)) :
      ∃ E y, A.asked k = E ++ [y] ∧ Tame a E ∧ y.Closes a ∧ ∃ x ∈ E, ∃ r : LegacyRequest,
        x.before.get? a = some (Kind.legacyRequest.encode r) ∧ r.status = .consumed ∧ r.randomness = q := by
    have stands := rivals.stands k
    rw [returned] at stands
    exact stands.returned
  refine ⟨?_, ?_, fun k none => (rivals.stands k).tame none⟩
  · intro j k p q returned returned'
    obtain ⟨E, y, asked, _, closes, _⟩ := closed j p returned
    obtain ⟨E', z, asked', _, closes', _⟩ := closed k q returned'
    obtain ⟨hy, rfl⟩ := Arena.mem_asked.1 (show y ∈ A.asked j by simp [asked])
    obtain ⟨hz, rfl⟩ := Arena.mem_asked.1 (show z ∈ A.asked k by simp [asked'])
    by_contra other
    have apart : y ≠ z := fun same => other (congrArg Exchange.caller same)
    let both (x y : Exchange ι) : Prop := ¬ (x.Closes a ∧ y.Closes a)
    have _ : Std.Symm both := ⟨fun _ _ h held => h held.symm⟩
    have pairs : A.exchanges.Pairwise both := course.single.imp fun h held => h held.1 held.2
    exact pairs.forall hy hz apart ⟨closes, closes'⟩
  · intro k q returned
    obtain ⟨E, y, asked, tame, closes, x, hx, r, read, consumed, rfl⟩ := closed k q returned
    have mem (z : Exchange ι) (hz : z ∈ E ++ [y]) : z ∈ A.exchanges :=
      (Arena.mem_asked.1 (by rwa [asked] : z ∈ A.asked k)).1
    refine ⟨⟨?_, course.settled.once⟩, ⟨E, y, asked, tame, closes⟩, fun next later => ?_⟩
    · refine course.seen x (mem x (List.mem_append_left _ hx)) r read ?_
      rw [consumed]
      exact nofun
    · obtain ⟨rivals', more⟩ := rivals.run hP ha on later
      obtain ⟨τ, backed', course'⟩ := rivals'.course
      have vacant := (course'.gone y (more.subset (mem y (by simp))) closes).2
      rw [Ledger.get?, backed'.fits.get?_eq (t := .legacyRequest P id) (by simpa using hP) ha, vacant]
      rfl

end

namespace Recorded

def secret : Secret := ⟨List.replicate 32 5, rfl⟩

/-- The secret's public key. -/
def authority : Address := ⟨[110, 122, 28, 221, 41, 176, 183, 143, 209, 58, 244, 197, 89, 143, 239, 244, 239,
  42, 151, 22, 110, 60, 166, 242, 228, 251, 252, 205, 128, 80, 91, 241], rfl⟩

def answer : Block 32 := ⟨List.replicate 32 6, rfl⟩

/-- A legacy request, with an authority that can answer it. -/
def pledged : Submission where
  operations := [.command program (.initializeLegacy program authority program 5),
    .command program (.requestRandomness consumer program none 0 (List.replicate 32 4))]
  signers := [program, consumer]

def fulfilling : Submission where
  operations := [.signature secret (Proof.message 0 answer).bytes,
    .command program (.fulfillRandomness authority 0 answer)]
  signers := [authority]

/-- Two calls on the first request. -/
def finalizer (_ : Fin 2) : Finalization where
  client := ⟨program, .legacy none⟩
  requester := consumer
  handle := ⟨0, addresses[4].2, .legacy, false, none⟩

/-- Both find the request consumed by the first one, and close it in turn. -/
def finish : List (Move (Fin 2)) := .transact fulfilling :: [0, 1, 0, 0, 1, 0, 1, 0, 1].map .turn

def finished : Arena (Fin 2) (Except ClientError (Block 32)) :=
  let _ := crypto
  (Arena.start (Ledger.history [pledged]).1 fun k => (finalizer k).start).run finish

/-- What a call has returned without an error. -/
def returned? {ι α : Type} (A : Arena ι (Except ClientError α)) (k : ι) : Option α :=
  match A.talks k with
  | .ok (.done (.ok a)) => some a
  | _ => none

theorem returned_of_eq {ι α : Type} {A : Arena ι (Except ClientError α)} {k : ι} {a : α}
    (h : returned? A k = some a) : A.Returned k (.ok a) := by
  unfold returned? at h
  unfold Arena.Returned
  split at h
  · next talks =>
    cases h
    exact talks
  · cases h

theorem finished_first : returned? finished 0 = some answer := by decide +kernel

/-- The first call returns the answer, the second one none, and the request stays away. -/
theorem finished_once :
    let _ := crypto
    finished.Returned 0 (.ok answer) ∧ (∀ q, ¬ finished.Returned 1 (.ok q)) ∧
      Tame addresses[4].2 (finished.asked 1) ∧
      ∀ turns : List (Fin 2), (finished.run (turns.map .turn)).ledger.get? addresses[4].2 = none := by
  intro _
  have place : @Site.address crypto (.legacyRequest program 0) = .ok (addresses[4].2, 255) :=
    address_of addresses[4] (List.getElem_mem _)
  have past : ∀ t ∈ [pledged], t.Over Set.univ := by
    simp [Submission.Over, pledged, Operation.Over]
  have turns (ks : List (Fin 2)) : ∀ m ∈ ks.map Move.turn, m.Over Set.univ := by
    intro m hm
    obtain ⟨k, _, rfl⟩ := List.mem_map.1 hm
    trivial
  have inside : ∀ m ∈ finish, m.Over Set.univ := by
    intro m hm
    rcases List.mem_cons.1 hm with rfl | hm
    · simp [Move.Over, Submission.Over, fulfilling, Operation.Over]
    · exact turns _ m hm
  obtain ⟨single, once, tame⟩ := Arena.finalized_once distinct [pledged] past (Set.mem_univ program) place
    finalizer (fun _ => ⟨rfl, rfl⟩) finish inside
  have first : finished.Returned 0 (.ok answer) := returned_of_eq finished_first
  have second (q : Block 32) : ¬ finished.Returned 1 (.ok q) := by
    intro returned
    exact absurd (single 0 1 answer q first returned) (by decide)
  exact ⟨first, second, tame 1 second, fun ks => (once 0 answer first).2.2 _ (turns ks)⟩

end Recorded

end Randomness
