import Randomness.Proofs.Arena
import Randomness.Proofs.Sending

/-!
Calls of `submit` that race for the ids of their coordinators: each handle that is returned belongs to a
request of its own.
-/

namespace Randomness

section

variable [Crypto] {keys : Set Address} {ι : Type}

namespace Call

/-- A question for the account with the counter. -/
def Asked (c : Call) (x : Exchange ι) : Prop :=
  ∃ a b, Site.address ⟨c.program, .config c.generation⟩ = .ok (a, b) ∧ x.question = .account a

/-- The question for the counter, when it was `n`. -/
structure Learns (c : Call) (n : UInt64) (x : Exchange ι) : Prop where
  asked : c.Asked x
  counter : n.toNat = x.before.count c.generation c.program
  same : x.after = x.before

/-- A question for another account. -/
structure Looks (c : Call) (x : Exchange ι) : Prop where
  other : ∃ a, (∀ b, Site.address ⟨c.program, .config c.generation⟩ ≠ .ok (a, b)) ∧ x.question = .account a
  same : x.after = x.before

/-- Reading sends nothing and changes nothing. -/
structure Quiet (x : Exchange ι) : Prop where
  reads : ∀ is signers, x.question ≠ .submit is signers
  same : x.after = x.before

/-- What the ledger can do with the request for `n`. -/
structure Sends (c : Call) (n : UInt64) (l l' : Ledger) (a : Except Crash (Except LedgerError Execution)) :
    Prop where
  accepted : ∀ x, a = .ok (.ok x) → ∃ h, c.ending n (.ok x) = .ok h ∧ h.requestId = n ∧ c.Creates l l' h
  refused : (∀ x, a ≠ .ok (.ok x)) → l' = l
  stale : n.toNat ≠ l.count c.generation c.program → ¬ c.Overflows l → ∃ e, a = .ok (.error e)
  crashed : c.Overflows l → ∃ f, a = .error f

/-- How a call stands with what it has asked. -/
inductive Standing (c : Call) (k : ι) :
    List (Exchange ι) → Except Crash (LedgerDialogue (Except ClientError RequestHandle)) → Prop
  | unread {d : LedgerDialogue (Except ClientError RequestHandle)} (opens : c.Opens d) :
      Standing c k [] (.ok d)
  | failed {E : List (Exchange ι)} (e : ClientError) (quiet : ∀ x ∈ E, Quiet x) :
      Standing c k E (.ok (.done (.error e)))
  | reading {r : Exchange ι} {E : List (Exchange ι)} {n : UInt64} {m : Nat}
      {d : LedgerDialogue (Except ClientError RequestHandle)}
      (proper : c.program ≠ Instruction.signatureProgram) (first : c.Learns n r)
      (others : ∀ x ∈ E, c.Looks x) (asks : c.Asks n m d)
      (budget : E.length + 1 + m = 4) : Standing c k (r :: E) (.ok d)
  | sent {r : Exchange ι} {E : List (Exchange ι)} {n : UInt64} {i : Instruction} {l l' : Ledger}
      {a : Except Crash (Except LedgerError Execution)} (first : c.Learns n r) (others : ∀ x ∈ E, c.Looks x)
      (sends : c.Sends n l l' a) {d : Except Crash (LedgerDialogue (Except ClientError RequestHandle))}
      (ended : d = a.map fun r => .done (c.ending n r)) :
      Standing c k (r :: (E ++ [⟨k, l, l', .submit [i] [c.requester], a⟩])) d

/-- A call's transaction, on whatever ledger it is sent to. -/
theorem sends_of_answer {c : Call} {n : UInt64} {l : Ledger} {σ : Registry} {treasury : Address}
    {seed : Block 32} {i : Instruction} (inside : c.Over keys)
    (proper : c.program ≠ Instruction.signatureProgram)
    (backed : Backed keys l.accounts σ l.slot) (given : c.seed = seed.bytes)
    (made : (c.command treasury seed n).instruction c.program = .ok i) :
    let r := l.told (.submit [i] [c.requester])
    (∃ τ, Backed keys r.1.accounts τ r.1.slot) ∧ Ledger.NoMore keys l r.1 ∧ c.Sends n l r.1 r.2 := by
  intro r
  have stale : n.toNat ≠ l.count c.generation c.program → ¬ c.Overflows l → ∃ e, r.2 = .ok (.error e) := by
    intro moved within
    obtain ⟨e, refused⟩ := stale_refused inside proper backed made moved within
    exact ⟨e, by simp only [r, Ledger.told, refused]⟩
  have crashed (overflows : c.Overflows l) : ∃ f, r.2 = .error f :=
    ⟨.arithmetic, by simp only [r, Ledger.told, overflow_crashes inside proper backed made overflows]⟩
  cases answered : l.answer [i] [c.requester] with
  | error f =>
    have hr : r = (l, .error f) := by simp only [r, Ledger.told, answered]
    rw [hr] at stale crashed ⊢
    exact ⟨⟨σ, backed⟩, .refl l, fun x h => (by cases h), fun _ => rfl, stale, crashed⟩
  | ok q =>
    obtain ⟨l', e | x⟩ := q
    · have hr : r = (l', .ok (.error e)) := by simp only [r, Ledger.told, answered]
      obtain rfl := Ledger.answer_refused answered
      rw [hr] at stale crashed ⊢
      exact ⟨⟨σ, backed⟩, .refl _, fun x h => (by cases h), fun _ => rfl, stale, crashed⟩
    · have hr : r = (l', .ok (.ok x)) := by simp only [r, Ledger.told, answered]
      rw [hr] at stale crashed ⊢
      obtain ⟨after, more, h, ends, named, creates⟩ :=
        executed inside proper backed given made (Ledger.answer_accepted.1 answered)
      refine ⟨after, more, ?_, fun other => absurd rfl (other x), stale, crashed⟩
      intro y same
      cases same
      exact ⟨h, ends, named, creates⟩

theorem Standing.told {c : Call} {k : ι} (inside : c.Over keys) {E : List (Exchange ι)} {l : Ledger}
    {σ : Registry} (backed : Backed keys l.accounts σ l.slot) {q : LedgerRequest}
    {next : q.Answer → LedgerDialogue (Except ClientError RequestHandle)}
    (stands : Standing c k E (.ok (.ask q next))) :
    (∃ τ, Backed keys (l.told q).1.accounts τ (l.told q).1.slot) ∧ Ledger.NoMore keys l (l.told q).1 ∧
      Standing c k (E ++ [⟨k, l, (l.told q).1, q, (l.told q).2⟩]) ((l.told q).2.map next) := by
  cases stands with
  | unread opens =>
    cases opens with
    | read ha goes =>
      rename_i a b next
      refine ⟨⟨σ, backed⟩, .refl l, ?_⟩
      rcases goes (.ok (l.get? a)) with ⟨e, failed⟩ | ⟨n, ⟨data, config, found, read, rfl⟩, asks⟩
      · change Standing c k _ (.ok (next (.ok (l.get? a))))
        rw [failed]
        refine .failed e fun x hx => ?_
        rw [List.mem_singleton.1 hx]
        exact ⟨fun is signers sent => (by cases sent), rfl⟩
      · obtain ⟨proper, counter⟩ := backed.config_read inside.1 ha (Except.ok.inj found) read
        refine .reading proper ⟨⟨a, b, ha, rfl⟩, ?_, rfl⟩ (by simp) asks rfl
        change _ = l.count c.generation c.program
        rw [Ledger.count, backed.requestCount_eq inside.1, counter]
  | reading proper first others asks budget =>
    cases asks with
    | look other goes =>
      rename_i r E n m a next
      refine ⟨⟨σ, backed⟩, .refl l, ?_⟩
      refine .reading (E := E ++ [_]) proper first ?_ (goes (.ok (l.get? a))) ?_
      · intro x hx
        rcases List.mem_append.1 hx with hx | hx
        · exact others x hx
        · rw [List.mem_singleton.1 hx]
          exact ⟨⟨a, other, rfl⟩, rfl⟩
      · rw [List.length_append, List.length_singleton]
        omega
    | send given made ends =>
      obtain ⟨after, more, sends⟩ := sends_of_answer inside proper backed given made
      refine ⟨after, more, ?_⟩
      rw [funext ends]
      exact .sent first others sends rfl
  | sent first others sends ended =>
    rename_i a
    cases a <;> cases ended

theorem Standing.not_pause {c : Call} {k : ι} {E : List (Exchange ι)} {ms : Nat}
    {next : LedgerDialogue (Except ClientError RequestHandle)} : ¬ Standing c k E (.ok (.pause ms next)) := by
  intro stands
  cases stands with
  | unread opens => cases opens
  | reading proper first others asks => cases asks
  | sent first others sends ended =>
    rename_i a
    cases a <;> cases ended

/-- After four questions a call is over. -/
theorem Standing.ended {c : Call} {k : ι} {E : List (Exchange ι)}
    {d : Except Crash (LedgerDialogue (Except ClientError RequestHandle))} (stands : Standing c k E d)
    (long : 4 ≤ E.length) : Arena.Over d := by
  cases stands with
  | unread => simp at long
  | failed e quiet => exact .inl ⟨_, rfl⟩
  | reading proper first others asks budget =>
    rename_i m _
    obtain rfl : m = 0 := by
      rw [List.length_cons] at long
      omega
    cases asks with
    | failed e => exact .inl ⟨_, rfl⟩
  | sent first others sends ended =>
    rename_i a
    cases a with
    | error f => exact .inr ⟨f, ended⟩
    | ok r => exact .inl ⟨_, ended⟩

/-- Who returns a handle has created its request. -/
theorem Standing.created {c : Call} {k : ι} {E : List (Exchange ι)} {h : RequestHandle}
    (stands : Standing c k E (.ok (.done (.ok h)))) :
    ∃ x ∈ E, (∃ i, x.question = .submit [i] [c.requester]) ∧ c.Creates x.before x.after h := by
  cases stands with
  | unread opens => cases opens
  | reading proper first others asks => cases asks
  | sent first others sends ended =>
    rename_i r E n i l l' a
    have last : (⟨k, l, l', .submit [i] [c.requester], a⟩ : Exchange ι) ∈
        r :: (E ++ [⟨k, l, l', .submit [i] [c.requester], a⟩]) :=
      List.mem_cons_of_mem r (List.mem_append_right E List.mem_cons_self)
    refine ⟨_, last, ⟨i, rfl⟩, ?_⟩
    cases a with
    | error f => cases ended
    | ok a =>
      have ends : c.ending n a = .ok h := (Dialogue.done.inj (Except.ok.inj ended)).symm
      cases a with
      | error e => cases ends
      | ok x =>
        obtain ⟨h', ends', _, creates⟩ := sends.accepted x rfl
        rw [ends] at ends'
        cases ends'
        exact creates

theorem Looks.not_asked {c : Call} {x : Exchange ι} (looks : c.Looks x) : ¬ c.Asked x := by
  intro held
  obtain ⟨a, b, ha, asked⟩ := held
  obtain ⟨a', other, asked'⟩ := looks.other
  rw [asked] at asked'
  cases asked'
  exact other b ha

theorem Learns.quiet {c : Call} {n : UInt64} {x : Exchange ι} (learns : c.Learns n x) : Quiet x := by
  refine ⟨fun is signers sent => ?_, learns.same⟩
  obtain ⟨a, b, _, asked⟩ := learns.asked
  rw [asked] at sent
  cases sent

theorem Looks.quiet {c : Call} {x : Exchange ι} (looks : c.Looks x) : Quiet x := by
  refine ⟨fun is signers sent => ?_, looks.same⟩
  obtain ⟨a, _, looked⟩ := looks.other
  rw [looked] at sent
  cases sent

/-- What comes of a call whose counter is no longer what it read: it changes nothing and returns no handle. It
returns an error, unless its transaction crashes the ledger. -/
structure Fails (c : Call) (E : List (Exchange ι))
    (d : Except Crash (LedgerDialogue (Except ClientError RequestHandle))) : Prop where
  same : ∀ y ∈ E, y.after = y.before
  none : ∀ h, d ≠ .ok (.done (.ok h))
  ends : Arena.Over d → ((∃ e, d = .ok (.done (.error e))) ↔
    ¬ ∃ y ∈ E, (∃ is signers, y.question = .submit is signers) ∧ c.Overflows y.before)

namespace Fails

variable {c : Call} {k : ι} {E : List (Exchange ι)} {n : UInt64} {l l' : Ledger} {i : Instruction}
  {a : Except Crash (Except LedgerError Execution)}
  {d : Except Crash (LedgerDialogue (Except ClientError RequestHandle))}

/-- Before the transaction. -/
theorem of_quiet (quiet : ∀ x ∈ E, Quiet x) (going : ∀ h, d ≠ .ok (.done (.ok h)))
    (safe : ∀ f, d ≠ .error f) : c.Fails E d := by
  refine ⟨fun y hy => (quiet y hy).same, going, fun ended => ?_⟩
  have error : ∃ e, d = .ok (.done (.error e)) := by
    rcases ended with ⟨a, rfl⟩ | ⟨f, rfl⟩
    · cases a with
      | ok h => exact absurd rfl (going h)
      | error e => exact ⟨e, rfl⟩
    · exact absurd rfl (safe f)
  refine iff_of_true error ?_
  intro held
  obtain ⟨y, hy, ⟨is, signers, sent⟩, _⟩ := held
  exact (quiet y hy).reads is signers sent

/-- After the transaction, which came too late. -/
theorem of_sent (quiet : ∀ x ∈ E, Quiet x) (sends : c.Sends n l l' a)
    (counter : n.toNat ≠ l.count c.generation c.program) :
    c.Fails (E ++ [⟨k, l, l', .submit [i] [c.requester], a⟩]) (a.map fun r => .done (c.ending n r)) := by
  have refused (y : Execution) : a ≠ .ok (.ok y) := by
    intro accepted
    obtain ⟨h, _, rfl, creates⟩ := sends.accepted y accepted
    exact counter creates.next
  refine ⟨?_, ?_, fun _ => ?_⟩
  · intro y hy
    rcases List.mem_append.1 hy with hy | hy
    · exact (quiet y hy).same
    · rw [List.mem_singleton.1 hy]
      exact sends.refused refused
  · intro h returned
    cases a with
    | error f => cases returned
    | ok a =>
      cases a with
      | error e => cases returned
      | ok y => exact refused y rfl
  · by_cases large : c.Overflows l
    · obtain ⟨f, rfl⟩ := sends.crashed large
      refine iff_of_false ?_ ?_
      · intro held
        obtain ⟨e, returned⟩ := held
        cases returned
      · intro none
        exact none ⟨_, List.mem_append_right E List.mem_cons_self, ⟨_, _, rfl⟩, large⟩
    · obtain ⟨e, rfl⟩ := sends.stale counter large
      refine iff_of_true ⟨.ledger e, rfl⟩ ?_
      intro held
      obtain ⟨y, hy, ⟨is, signers, sent⟩, overflows⟩ := held
      rcases List.mem_append.1 hy with hy | hy
      · exact (quiet y hy).reads is signers sent
      · rw [List.mem_singleton.1 hy] at overflows
        exact large overflows

end Fails

theorem Standing.stale {c : Call} {k : ι} {E : List (Exchange ι)}
    {d : Except Crash (LedgerDialogue (Except ClientError RequestHandle))} (stands : Standing c k E d)
    {x : Exchange ι} (hx : x ∈ E) (asked : c.Asked x)
    (moved : ∀ s ∈ E, ∀ is signers, s.question = .submit is signers →
      x.before.count c.generation c.program ≠ s.before.count c.generation c.program) : c.Fails E d := by
  have reads {r : Exchange ι} {E : List (Exchange ι)} {n : UInt64} (first : c.Learns n r)
      (others : ∀ x ∈ E, c.Looks x) : ∀ x ∈ r :: E, Quiet x := by
    intro y hy
    rcases List.mem_cons.1 hy with rfl | hy
    · exact first.quiet
    · exact (others y hy).quiet
  cases stands with
  | unread => cases hx
  | failed e quiet => exact .of_quiet quiet (fun h same => by cases same) fun f same => by cases same
  | reading proper first others asks budget =>
    refine .of_quiet (reads first others) ?_ fun f same => by cases same
    intro h same
    cases same
    cases asks
  | sent first others sends ended =>
    rename_i r E n i l l' a
    have last : (⟨k, l, l', .submit [i] [c.requester], a⟩ : Exchange ι) ∈
        r :: (E ++ [⟨k, l, l', .submit [i] [c.requester], a⟩]) :=
      List.mem_cons_of_mem r (List.mem_append_right E List.mem_cons_self)
    have same : x = r := by
      rcases List.mem_cons.1 hx with rfl | hx
      · rfl
      · rcases List.mem_append.1 hx with hx | hx
        · exact absurd asked (others x hx).not_asked
        · rw [List.mem_singleton.1 hx] at asked
          obtain ⟨_, _, _, sent⟩ := asked
          cases sent
    subst same
    have counter : n.toNat ≠ l.count c.generation c.program := by
      rw [first.counter]
      exact moved _ last _ _ rfl
    subst ended
    exact .of_sent (E := x :: E) (reads first others) sends counter

end Call

variable [DecidableEq ι]

/-- Calls that are under way, on a ledger that transactions have led to. -/
structure Race (keys : Set Address) (calls : ι → Call) (A : Arena ι (Except ClientError RequestHandle)) :
    Prop where
  backed : ∃ σ, Backed keys A.ledger.accounts σ A.ledger.slot
  climbs : Arena.Climbs keys A.exchanges A.ledger
  stands : ∀ k, (calls k).Standing k (A.asked k) (A.talks k)

namespace Race

variable {calls : ι → Call} {A : Arena ι (Except ClientError RequestHandle)}

theorem start (distinct : DistinctAddresses keys) {l : Ledger} {σ : Registry}
    (backed : Backed keys l.accounts σ l.slot) (within : ∀ k, (calls k).Over keys) :
    Race keys calls (Arena.start l fun k => (calls k).start) where
  backed := ⟨σ, backed⟩
  climbs := .nil l
  stands k := .unread (Call.opens distinct (within k))

/-- The race goes on, whatever the next moves are; a caller that has a turn asks, unless its call is over. -/
theorem run (h : Race keys calls A) (within : ∀ k, (calls k).Over keys) {moves : List (Move ι)}
    (inside : ∀ m ∈ moves, m.Over keys) :
    Race keys calls (A.run moves) ∧ Arena.Follows keys A (A.run moves).exchanges (A.run moves).ledger ∧
      ∀ k, Arena.Over ((A.run moves).talks k) ∨
        moves.countP (Move.isTurn k) ≤ ((A.run moves).asked k).length := by
  have kept := Arena.run_induction (A := A) (n := fun _ => 0)
    (G := fun X l => (∃ σ, Backed keys l.accounts σ l.slot) ∧ Arena.Climbs keys X l ∧
      Arena.Follows keys A X l)
    (I := fun k n E d => (calls k).Standing k E d ∧ (Arena.Over d ∨ n ≤ E.length))
    ?_ ?_ ?_ ?_ ⟨h.backed, h.climbs, .refl A⟩ (fun k => ⟨h.stands k, .inr (Nat.zero_le _)⟩) inside
  · obtain ⟨⟨backed, climbs, follows⟩, each⟩ := kept
    refine ⟨⟨backed, climbs, fun k => (each k).1⟩, follows, fun k => ?_⟩
    simpa using (each k).2
  · intro X l t ht held
    obtain ⟨⟨σ, backed⟩, climbs, follows⟩ := held
    obtain ⟨after, more⟩ := Ledger.backed_after backed ht
    exact ⟨after, climbs.later more, follows.later more⟩
  · intro k n E d done held
    obtain ⟨stands, _⟩ := held
    exact ⟨stands, .inl done⟩
  · intro k n E ms next held
    obtain ⟨stands, _⟩ := held
    exact absurd stands Call.Standing.not_pause
  · intro k n X E l q next held held'
    obtain ⟨⟨σ, backed⟩, climbs, follows⟩ := held
    obtain ⟨stands, count⟩ := held'
    obtain ⟨after, more, stands'⟩ := stands.told (within k) backed
    refine ⟨⟨after, climbs.snoc rfl rfl more, follows.snoc rfl more⟩, stands', .inr ?_⟩
    rcases count with (⟨a, done⟩ | ⟨f, done⟩) | count
    · cases done
    · cases done
    · rw [List.length_append, List.length_singleton]
      omega

theorem created (h : Race keys calls A) {k : ι} {r : RequestHandle} (returned : A.Returned k (.ok r)) :
    ∃ x ∈ A.exchanges, x.caller = k ∧ (∃ i, x.question = .submit [i] [(calls k).requester]) ∧
      (calls k).Creates x.before x.after r := by
  have stands := h.stands k
  rw [returned] at stands
  obtain ⟨x, hx, sent, creates⟩ := stands.created
  obtain ⟨mem, caller⟩ := Arena.mem_asked.1 hx
  exact ⟨x, mem, caller, sent, creates⟩

theorem apart (h : Race keys calls A) (within : ∀ k, (calls k).Over keys) {j k : ι} (other : j ≠ k)
    {r q : RequestHandle} (first : A.Returned j (.ok r)) (second : A.Returned k (.ok q))
    (program : (calls j).program = (calls k).program)
    (generation : (calls j).generation = (calls k).generation) : r.requestId ≠ q.requestId := by
  obtain ⟨x, hx, rfl, _, creates⟩ := h.created first
  obtain ⟨y, hy, rfl, _, creates'⟩ := h.created second
  have next := creates.next
  have counted := creates.counted
  rw [program, generation] at next counted
  have next' := creates'.next
  have counted' := creates'.counted
  have hP := (within y.caller).1
  -- One of the two transactions came first, and the other one found a larger counter.
  have order : Ledger.NoMore keys x.after y.before ∨ Ledger.NoMore keys y.after x.before := by
    apply h.climbs.order_or hx hy
    intro same
    exact other (congrArg Exchange.caller same)
  intro same
  rw [same] at next
  rcases order with more | more
  · have := more (calls y.caller).generation _ hP
    omega
  · have := more (calls y.caller).generation _ hP
    omega

/-- A call has read the counter and sent nothing yet, and the counter has moved on. -/
structure Stale (calls : ι → Call) (A : Arena ι (Except ClientError RequestHandle)) (k : ι) : Prop where
  unsent : ∀ x ∈ A.exchanges, x.caller = k → ∀ is signers, x.question ≠ .submit is signers
  moved : ∃ x ∈ A.exchanges, x.caller = k ∧ (calls k).Asked x ∧
    x.before.count (calls k).generation (calls k).program ≠
      A.ledger.count (calls k).generation (calls k).program

/-- Staleness can be seen in the exchanges. -/
theorem Stale.of_exchanges {k : ι} {a : Address} {b : UInt8}
    (ha : Site.address ⟨(calls k).program, .config (calls k).generation⟩ = .ok (a, b))
    (unsent : (A.exchanges.all fun x => !(decide (x.caller = k) && x.question.isSubmit)) = true)
    (moved : (A.exchanges.any fun x => decide (x.caller = k ∧ x.question = .account a ∧
      x.before.count (calls k).generation (calls k).program ≠
        A.ledger.count (calls k).generation (calls k).program)) = true) : Stale calls A k := by
  constructor
  · intro x hx caller is signers sent
    have quiet := List.all_eq_true.1 unsent x hx
    simp [caller, sent, LedgerRequest.isSubmit] at quiet
  · obtain ⟨x, hx, read⟩ := List.any_eq_true.1 moved
    obtain ⟨caller, question, counters⟩ := of_decide_eq_true read
    exact ⟨x, hx, caller, ⟨a, b, ha, question⟩, counters⟩

/-- Whatever comes next, a stale call changes nothing and returns no handle; with enough turns it returns an
error, unless it sends a transaction that crashes the ledger. -/
theorem stale (h : Race keys calls A) (within : ∀ k, (calls k).Over keys) {k : ι} (stale : Stale calls A k)
    {moves : List (Move ι)} (inside : ∀ m ∈ moves, m.Over keys) :
    (∀ x ∈ (A.run moves).exchanges, x.caller = k → x.after = x.before) ∧
      (∀ r, ¬ (A.run moves).Returned k (.ok r)) ∧
      (4 ≤ moves.countP (Move.isTurn k) → ((∃ e, (A.run moves).Returned k (.error e)) ↔
        ¬ ∃ x ∈ (A.run moves).exchanges, x.caller = k ∧ (∃ is signers, x.question = .submit is signers) ∧
          (calls k).Overflows x.before)) := by
  obtain ⟨race, follows, turns⟩ := h.run within inside
  obtain ⟨x, hx, rfl, asked, moved⟩ := stale.moved
  obtain ⟨later, exchanges, after⟩ := follows.exchanges
  have hP := (within x.caller).1
  have found : x ∈ (A.run moves).asked x.caller := by
    rw [Arena.mem_asked, exchanges]
    exact ⟨List.mem_append_left _ hx, rfl⟩
  obtain ⟨during, since⟩ := h.climbs.each x hx
  have grown := (during.trans since) (calls x.caller).generation _ hP
  have result := (race.stands x.caller).stale found asked fun s hs is signers sent => by
    obtain ⟨hs, caller⟩ := Arena.mem_asked.1 hs
    rw [exchanges] at hs
    rcases List.mem_append.1 hs with hs | hs
    · exact absurd sent (stale.unsent s hs caller is signers)
    · have more := after s hs (calls x.caller).generation _ hP
      omega
  obtain ⟨quiet, none, ends⟩ := result
  refine ⟨fun y hy caller => quiet y (Arena.mem_asked.2 ⟨hy, caller⟩), none, fun enough => ?_⟩
  have done : Arena.Over ((A.run moves).talks x.caller) := by
    rcases turns x.caller with done | asked
    · exact done
    · exact (race.stands x.caller).ended (enough.trans asked)
  refine (ends done).trans (not_congr ?_)
  simp only [Arena.mem_asked, and_assoc]

end Race

/-- Calls of `submit` never share a request. Whatever transactions have led to the ledger, and however the
calls and other transactions interleave: each returned handle is that of a request which the caller's own
transaction created, for this caller and seed; handles of one coordinator and generation have different ids;
and a call whose counter has moved on before it sends its transaction changes nothing and returns no handle.
Given its turns it ends in an error, except when it sends a transaction that crashes the ledger. -/
theorem Arena.submits_never_share (distinct : DistinctAddresses keys) (ts : List Submission)
    (past : ∀ t ∈ ts, t.Over keys) (calls : ι → Call) (within : ∀ k, (calls k).Over keys)
    (moves : List (Move ι)) (inside : ∀ m ∈ moves, m.Over keys) :
    let A := (Arena.start (Ledger.history ts).1 fun k => (calls k).start).run moves
    (∀ k r, A.Returned k (.ok r) → ∃ x ∈ A.exchanges, x.caller = k ∧
      (∃ i, x.question = .submit [i] [(calls k).requester]) ∧ (calls k).Creates x.before x.after r) ∧
    (∀ j k r q, j ≠ k → A.Returned j (.ok r) → A.Returned k (.ok q) → (calls j).program = (calls k).program →
      (calls j).generation = (calls k).generation → r.requestId ≠ q.requestId) ∧
    ∀ k, Race.Stale calls A k → ∀ next : List (Move ι), (∀ m ∈ next, m.Over keys) →
      (∀ x ∈ (A.run next).exchanges, x.caller = k → x.after = x.before) ∧
      (∀ r, ¬ (A.run next).Returned k (.ok r)) ∧
      (4 ≤ next.countP (Move.isTurn k) → ((∃ e, (A.run next).Returned k (.error e)) ↔
        ¬ ∃ x ∈ (A.run next).exchanges, x.caller = k ∧ (∃ is signers, x.question = .submit is signers) ∧
          (calls k).Overflows x.before)) := by
  obtain ⟨σ, backed⟩ := Ledger.backed distinct ts past
  obtain ⟨race, _, _⟩ := (Race.start distinct backed within).run within inside
  refine ⟨fun k r => race.created, fun j k r q other => race.apart within other, ?_⟩
  exact fun k stale next later => race.stale within stale later

end

namespace Recorded

def configured : Submission where
  operations := [.command program (.initializeLegacy program consumer program 5)]
  signers := [program]

/-- Three callers with different seeds. -/
def racer (k : Fin 3) : Call where
  client := ⟨program, .legacy none⟩
  requester := consumer
  seed := List.replicate 32 (UInt8.ofNat k.val)
  numWords := none

/-- The race after some turns. -/
def race (turns : List (Fin 3)) : Arena (Fin 3) (Except ClientError RequestHandle) :=
  let _ := crypto
  (Arena.start (Ledger.history [configured]).1 fun k => (racer k).start).run (turns.map .turn)

/-- The id in a returned handle, or none for an error. -/
def idOf (A : Arena (Fin 3) (Except ClientError RequestHandle)) (k : Fin 3) : Option (Option UInt64) :=
  match A.talks k with
  | .ok (.done r) => some (r.toOption.map RequestHandle.requestId)
  | _ => none

theorem returned_of_idOf {A : Arena (Fin 3) (Except ClientError RequestHandle)} {k : Fin 3} {id : UInt64}
    (h : idOf A k = some (some id)) : ∃ r, A.Returned k (.ok r) ∧ r.requestId = id := by
  unfold idOf at h
  unfold Arena.Returned
  split at h
  · next r talks =>
    cases r with
    | error e => cases h
    | ok r =>
      cases h
      exact ⟨r, talks, rfl⟩
  · cases h

/-- The second caller reads the same counter as the first one, whose transaction makes it stale. -/
theorem second_stale :
    let _ := crypto
    Race.Stale racer (race [0, 1, 0]) 1 :=
  let _ := crypto
  .of_exchanges (address_of addresses[0] (List.getElem_mem _)) (by decide +kernel) (by decide +kernel)

/-- The third caller has the next id, and the second one has none, and ends in an error. -/
theorem racers_apart :
    let _ := crypto
    (∃ r q, (race [0, 1, 0, 1, 2, 2]).Returned 0 (.ok r) ∧ (race [0, 1, 0, 1, 2, 2]).Returned 2 (.ok q) ∧
      r.requestId ≠ q.requestId) ∧
    (∀ (turns : List (Fin 3)) (r : RequestHandle),
      ¬ ((race [0, 1, 0]).run (turns.map .turn)).Returned 1 (.ok r)) ∧
    ∃ e, ((race [0, 1, 0]).run ([1, 1, 1, 1].map .turn)).Returned 1 (.error e) := by
  intro _
  have past : ∀ t ∈ [configured], t.Over Set.univ := by
    simp [Submission.Over, configured, Operation.Over]
  have within : ∀ k, (racer k).Over Set.univ := fun k => ⟨Set.mem_univ _, fun _ _ => Set.mem_univ _⟩
  have inside (turns : List (Fin 3)) : ∀ m ∈ turns.map Move.turn, m.Over Set.univ := by
    intro m hm
    obtain ⟨k, _, rfl⟩ := List.mem_map.1 hm
    trivial
  have id0 : idOf (race [0, 1, 0, 1, 2, 2]) 0 = some (some 0) := by decide +kernel
  have id2 : idOf (race [0, 1, 0, 1, 2, 2]) 2 = some (some 1) := by decide +kernel
  obtain ⟨r, first, _⟩ := returned_of_idOf id0
  obtain ⟨q, second, _⟩ := returned_of_idOf id2
  obtain ⟨_, apart, _⟩ := Arena.submits_never_share distinct [configured] past racer within _
    (inside [0, 1, 0, 1, 2, 2])
  obtain ⟨_, _, stale⟩ := Arena.submits_never_share distinct [configured] past racer within _
    (inside [0, 1, 0])
  refine ⟨⟨r, q, first, second, apart 0 2 r q (by decide) first second rfl rfl⟩, ?_, ?_⟩
  · exact fun turns => (stale 1 second_stale _ (inside turns)).2.1
  · refine ((stale 1 second_stale _ (inside [1, 1, 1, 1])).2.2 (by decide)).2 ?_
    have slots : (((race [0, 1, 0]).run ([1, 1, 1, 1].map .turn)).exchanges.all fun x =>
        decide (x.before.slot.toNat + 1 ≠ UInt64.size)) = true := by decide +kernel
    intro held
    obtain ⟨x, hx, _, _, overflows⟩ := held
    rcases overflows with full | ⟨b, config, mode, _⟩
    · exact of_decide_eq_true (List.all_eq_true.1 slots x hx) full
    · cases mode

/-- Another request takes the id, and the balance is paid back. -/
def overtaking : Submission where
  operations := [.command program (.requestRandomWords consumer
      { requestId := 0, subscriptionId := 0, consumerProgram := consumer, numWords := 1, seed := Block.zero 32
        callbackComputeLimit := 200000, callbackAccounts := [] }),
    .command program (.fundSubscription consumer 0 0x8000000000000000)]
  signers := [consumer]

/-- A caller has read the counter, for words that cost 2 ^ 64, when another request is executed. -/
def overtaken : Arena Unit (Except ClientError RequestHandle) :=
  let _ := crypto
  (Arena.start (offered 0x8000000000000000 0xffffffffffffffff) fun _ => asker.start).run
    [.turn (), .transact overtaking]

/-- The stale call never returns: the ledger crashes on its transaction. -/
theorem overtaken_crashes :
    let _ := crypto
    Race.Stale (fun _ => asker) overtaken () ∧
      ∀ r, ¬ (overtaken.run (List.replicate 4 (.turn ()))).Returned () r := by
  intro _
  have crashed : ((overtaken.run (List.replicate 4 (.turn ()))).talks ()).toOption.isNone = true := by
    decide +kernel
  have stale : Race.Stale (fun _ => asker) overtaken () :=
    .of_exchanges (address_of addresses[1] (List.getElem_mem _)) (by decide +kernel) (by decide +kernel)
  refine ⟨stale, ?_⟩
  intro r returned
  rw [returned] at crashed
  cases crashed

end Recorded

end Randomness
