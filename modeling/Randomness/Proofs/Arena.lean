import Mathlib.Data.List.Pairwise
import Mathlib.Logic.Function.Basic
import Randomness.Proofs.Backing
import Randomness.Simulation.World

/-!
Several callers on one ledger. Each of them is in a conversation; they take turns in any order, one question
at a time, with transactions of others in between.
-/

namespace Randomness

def LedgerRequest.isSubmit : LedgerRequest → Bool
  | account _ => false
  | submit _ _ => true

/-- A question of a caller, what it was told, and the ledger around it. -/
structure Exchange (ι : Type) where
  caller : ι
  before : Ledger
  after : Ledger
  question : LedgerRequest
  answer : Except Crash question.Answer

/-- What is left of each caller's conversation, which a crash can end, and all that was asked so far. -/
structure Arena (ι α : Type) where
  ledger : Ledger
  talks : ι → Except Crash (LedgerDialogue α)
  exchanges : List (Exchange ι)

inductive Move (ι : Type) where
  | turn (caller : ι)
  /-- A transaction of anyone else. -/
  | transact (t : Submission)

namespace Move

variable {ι : Type}

def Over (keys : Set Address) : Move ι → Prop
  | turn _ => True
  | transact t => t.Over keys

def isTurn [DecidableEq ι] (k : ι) : Move ι → Bool
  | turn j => j = k
  | transact _ => false

end Move

namespace Arena

variable {ι α : Type}

/-- Nobody has asked yet. -/
def start (l : Ledger) (talks : ι → LedgerDialogue α) : Arena ι α := ⟨l, fun k => .ok (talks k), []⟩

def Returned (A : Arena ι α) (k : ι) (a : α) : Prop := A.talks k = .ok (.done a)

/-- A conversation that is over. -/
def Over (d : Except Crash (LedgerDialogue α)) : Prop := (∃ a, d = .ok (.done a)) ∨ ∃ f, d = .error f

/-- What one caller asked. -/
def asked [DecidableEq ι] (A : Arena ι α) (k : ι) : List (Exchange ι) :=
  A.exchanges.filter fun x => x.caller = k

theorem mem_asked [DecidableEq ι] {A : Arena ι α} {k : ι} {x : Exchange ι} :
    x ∈ A.asked k ↔ x ∈ A.exchanges ∧ x.caller = k := by
  simp [asked]

end Arena

variable [Crypto]

/-- What the ledger tells a caller, and how it goes on. A crash leaves it as it was and usable. Behind a lock that is
lost with the caller who crashes while holding it, everybody who comes later would crash as well. -/
def Ledger.told (l : Ledger) : (q : LedgerRequest) → Ledger × Except Crash q.Answer
  | .account a => (l, .ok (.ok (l.get? a)))
  | .submit is signers => match l.answer is signers with
    | .ok (l', r) => (l', .ok r)
    | .error f => (l, .error f)

/-- A transaction of one operation leaves the ledger alone, or does what the operation does. -/
theorem Ledger.told_one {keys : Set Address} {l : Ledger} {σ : Registry}
    (backed : Backed keys l.accounts σ l.slot) {o : Operation} (inside : o.Over keys) {i : Instruction}
    (made : o.instruction = .ok i) (signers : List Address) :
    let r := l.told (.submit [i] signers)
    (r.1 = l ∧ ∀ x, r.2 ≠ .ok (.ok x)) ∨ ∃ x y τ log, r.2 = .ok (.ok x) ∧ o.step y σ = some (τ, log) ∧
      Backed keys r.1.accounts τ r.1.slot := by
  intro r
  cases answered : l.answer [i] signers with
  | error f =>
    have hr : r = (l, .error f) := by simp only [r, told, answered]
    rw [hr]
    exact .inl ⟨rfl, fun x same => by cases same⟩
  | ok q =>
    obtain ⟨l', e | x⟩ := q
    · have hr : r = (l', .ok (.error e)) := by simp only [r, told, answered]
      rw [hr]
      exact .inl ⟨answer_refused answered, fun x same => by cases same⟩
    · have hr : r = (l', .ok (.ok x)) := by simp only [r, told, answered]
      obtain ⟨y, τ, log, _, stepped, backed', _⟩ :=
        submit_one backed inside made (answer_accepted.1 answered)
      rw [hr]
      exact .inr ⟨x, y, τ, log, rfl, stepped, backed'⟩

/-- A world in which nothing else happens answers like its ledger. -/
theorem Simulation.World.answer_eq (w : Simulation.World) (calm : w.injections = []) (q : LedgerRequest) :
    (w.answer q).map (fun r => (r.1.ledger, r.2)) =
      (w.ledger.told q).2.map fun r => ((w.ledger.told q).1, r) := by
  cases q with
  | account a =>
    simp [World.answer, World.answerAccount, World.injection?, calm, mutateAll, Ledger.told, Except.map]
  | submit is signers =>
    simp only [World.answer, World.answerSubmit, World.injection?, calm, Ledger.told, mutateAll,
      List.find?_nil, Option.elim_none, Option.bind_none, List.foldl_nil]
    cases w.ledger.answer is signers with
    | error f => rfl
    | ok r =>
      obtain ⟨l, e | x⟩ := r <;> rfl

/-- What a transaction of anyone else executes on a ledger. -/
def Move.moments {ι : Type} (l : Ledger) : Move ι → List Moment
  | turn _ => []
  | transact t => (l.after t).2

namespace Arena

variable {ι α : Type} [DecidableEq ι]

/-- A caller asks its next question, or lets time pass. -/
def turn (A : Arena ι α) (k : ι) : Arena ι α :=
  match A.talks k with
  | .error _ | .ok (.done _) => A
  | .ok (.pause _ next) => { A with talks := Function.update A.talks k (.ok next) }
  | .ok (.ask q next) =>
    { ledger := (A.ledger.told q).1
      talks := Function.update A.talks k ((A.ledger.told q).2.map next)
      exchanges := A.exchanges ++ [⟨k, A.ledger, (A.ledger.told q).1, q, (A.ledger.told q).2⟩] }

def step (A : Arena ι α) : Move ι → Arena ι α
  | .turn k => A.turn k
  | .transact t => { A with ledger := (A.ledger.after t).1 }

def run (A : Arena ι α) (moves : List (Move ι)) : Arena ι α := moves.foldl step A

/-- What the transactions among the moves execute. -/
def others (A : Arena ι α) : List (Move ι) → List Moment
  | [] => []
  | m :: ms => m.moments A.ledger ++ (A.step m).others ms

/-- A turn is nothing once the conversation is over; else it lets time pass, or asks. -/
theorem turn_cases (A : Arena ι α) (k : ι) :
    (Over (A.talks k) ∧ A.turn k = A) ∨
    (∃ ms next, A.talks k = .ok (.pause ms next) ∧ (A.turn k).ledger = A.ledger ∧
      (A.turn k).exchanges = A.exchanges ∧ (A.turn k).talks = Function.update A.talks k (.ok next)) ∨
    ∃ q next, A.talks k = .ok (.ask q next) ∧ (A.turn k).ledger = (A.ledger.told q).1 ∧
      (A.turn k).exchanges = A.exchanges ++ [⟨k, A.ledger, (A.ledger.told q).1, q, (A.ledger.told q).2⟩] ∧
      (A.turn k).talks = Function.update A.talks k ((A.ledger.told q).2.map next) := by
  cases talk : A.talks k with
  | error f => exact .inl ⟨.inr ⟨f, rfl⟩, by simp only [turn, talk]⟩
  | ok d =>
    cases d with
    | done a => exact .inl ⟨.inl ⟨a, rfl⟩, by simp only [turn, talk]⟩
    | pause ms next => exact .inr (.inl ⟨ms, next, rfl, by simp only [turn, talk, and_self]⟩)
    | ask q next => exact .inr (.inr ⟨q, next, rfl, by simp only [turn, talk, and_self]⟩)

omit [Crypto] in
theorem asked_snoc {A B : Arena ι α} {x : Exchange ι} (h : B.exchanges = A.exchanges ++ [x]) (j : ι) :
    B.asked j = if j = x.caller then A.asked j ++ [x] else A.asked j := by
  rw [asked, asked, h, List.filter_append]
  by_cases same : j = x.caller
  · simp [same]
  · simp [same, Ne.symm same]

section

variable {keys : Set Address} {G : List (Exchange ι) → Ledger → Prop}
  {I : ι → Nat → List (Exchange ι) → Except Crash (LedgerDialogue α) → Prop}
  (rest : ∀ k n E d, Over d → I k n E d → I k (n + 1) E d)
  (pause : ∀ k n E ms next, I k n E (.ok (.pause ms next)) → I k (n + 1) E (.ok next))
  (told : ∀ k n X E l q next, G X l → I k n E (.ok (.ask q next)) →
    let x : Exchange ι := ⟨k, l, (l.told q).1, q, (l.told q).2⟩
    G (X ++ [x]) (l.told q).1 ∧ I k (n + 1) (E ++ [x]) ((l.told q).2.map next))

include rest pause told

/-- One turn only changes the caller's own view, and what is known of all exchanges. -/
theorem turn_induction {A : Arena ι α} {n : ι → Nat} (k : ι) (all : G A.exchanges A.ledger)
    (each : ∀ j, I j (n j) (A.asked j) (A.talks j)) :
    G (A.turn k).exchanges (A.turn k).ledger ∧
      ∀ j, I j (Function.update n k (n k + 1) j) ((A.turn k).asked j) ((A.turn k).talks j) := by
  have mine := each k
  have others (B : Arena ι α) (own : I k (n k + 1) (B.asked k) (B.talks k))
      (apart : ∀ j, j ≠ k → B.asked j = A.asked j ∧ B.talks j = A.talks j) (j : ι) :
      I j (Function.update n k (n k + 1) j) (B.asked j) (B.talks j) := by
    by_cases same : j = k
    · subst same
      rw [Function.update_self]
      exact own
    · rw [Function.update_of_ne same, (apart j same).1, (apart j same).2]
      exact each j
  rcases A.turn_cases k with ⟨ended, stays⟩ | ⟨ms, next, talk, ledger, exchanges, talks⟩ |
    ⟨q, next, talk, ledger, exchanges, talks⟩
  · rw [stays]
    exact ⟨all, others A (rest k _ _ _ ended mine) fun _ _ => ⟨rfl, rfl⟩⟩
  · have asked (j : ι) : (A.turn k).asked j = A.asked j := by rw [Arena.asked, exchanges, ← Arena.asked]
    rw [talk] at mine
    refine ⟨by rwa [exchanges, ledger], others _ ?_ fun j other => ⟨asked j, ?_⟩⟩
    · rw [asked, talks, Function.update_self]
      exact pause k _ _ ms next mine
    · rw [talks, Function.update_of_ne other]
  · rw [talk] at mine
    obtain ⟨all', own⟩ := told k (n k) A.exchanges (A.asked k) A.ledger q next all mine
    refine ⟨by rwa [exchanges, ledger], others _ ?_ fun j other => ⟨?_, ?_⟩⟩
    · rw [asked_snoc exchanges, if_pos rfl, talks, Function.update_self]
      exact own
    · rw [asked_snoc exchanges, if_neg other]
    · rw [talks, Function.update_of_ne other]

end

section

variable {keys : Set Address} {G : List (Exchange ι) → Ledger → List Moment → Prop}
  {I : ι → Nat → List (Exchange ι) → Except Crash (LedgerDialogue α) → Prop}
  (transact : ∀ X l H t, t.Over keys → G X l H → G X (l.after t).1 (H ++ (l.after t).2))
  (rest : ∀ k n E d, Over d → I k n E d → I k (n + 1) E d)
  (pause : ∀ k n E ms next, I k n E (.ok (.pause ms next)) → I k (n + 1) E (.ok next))
  (told : ∀ k n X E l H q next, G X l H → I k n E (.ok (.ask q next)) →
    let x : Exchange ι := ⟨k, l, (l.told q).1, q, (l.told q).2⟩
    G (X ++ [x]) (l.told q).1 H ∧ I k (n + 1) (E ++ [x]) ((l.told q).2.map next))

include transact rest pause told

/-- What holds of all exchanges, the ledger and the others' history, and of each caller's own exchanges, and is
kept by transactions and by single turns, holds after all moves. -/
theorem run_induction_others {A : Arena ι α} {n : ι → Nat} {H : List Moment}
    (all : G A.exchanges A.ledger H) (each : ∀ j, I j (n j) (A.asked j) (A.talks j)) {moves : List (Move ι)}
    (inside : ∀ m ∈ moves, m.Over keys) :
    G (A.run moves).exchanges (A.run moves).ledger (H ++ A.others moves) ∧
      ∀ j, I j (n j + moves.countP (Move.isTurn j)) ((A.run moves).asked j) ((A.run moves).talks j) := by
  induction moves generalizing A n H with
  | nil => exact ⟨by rwa [others, List.append_nil], each⟩
  | cons m moves ih =>
    have later := fun m hm => inside m (List.mem_cons_of_mem _ hm)
    rw [others, ← List.append_assoc]
    cases m with
    | turn k =>
      obtain ⟨all', each'⟩ := turn_induction (G := fun X l => G X l H) rest pause
        (fun k n X E l q next => told k n X E l H q next) k all each
      obtain ⟨all'', each''⟩ := ih (H := H ++ []) (by rwa [List.append_nil]) each' later
      refine ⟨all'', fun j => ?_⟩
      have count : n j + (Move.turn k :: moves).countP (Move.isTurn j) =
          Function.update n k (n k + 1) j + moves.countP (Move.isTurn j) := by
        rw [List.countP_cons]
        by_cases same : j = k
        · subst same
          rw [Function.update_self]
          simp only [Move.isTurn, decide_true, if_true]
          omega
        · rw [Function.update_of_ne same]
          simp [Move.isTurn, Ne.symm same]
      rw [count]
      exact each'' j
    | transact t =>
      have all' := transact _ _ H t (inside _ List.mem_cons_self) all
      obtain ⟨all'', each''⟩ := ih (A := A.step (.transact t)) all' each later
      refine ⟨all'', fun j => ?_⟩
      rw [List.countP_cons]
      exact each'' j

end

section

variable {keys : Set Address} {G : List (Exchange ι) → Ledger → Prop}
  {I : ι → Nat → List (Exchange ι) → Except Crash (LedgerDialogue α) → Prop}
  (transact : ∀ X l t, t.Over keys → G X l → G X (l.after t).1)
  (rest : ∀ k n E d, Over d → I k n E d → I k (n + 1) E d)
  (pause : ∀ k n E ms next, I k n E (.ok (.pause ms next)) → I k (n + 1) E (.ok next))
  (told : ∀ k n X E l q next, G X l → I k n E (.ok (.ask q next)) →
    let x : Exchange ι := ⟨k, l, (l.told q).1, q, (l.told q).2⟩
    G (X ++ [x]) (l.told q).1 ∧ I k (n + 1) (E ++ [x]) ((l.told q).2.map next))

include transact rest pause told

/-- The same without the others' history. -/
theorem run_induction {A : Arena ι α} {n : ι → Nat} (all : G A.exchanges A.ledger)
    (each : ∀ j, I j (n j) (A.asked j) (A.talks j)) {moves : List (Move ι)}
    (inside : ∀ m ∈ moves, m.Over keys) :
    G (A.run moves).exchanges (A.run moves).ledger ∧
      ∀ j, I j (n j + moves.countP (Move.isTurn j)) ((A.run moves).asked j) ((A.run moves).talks j) :=
  run_induction_others (G := fun X l _ => G X l) (H := []) (fun X l _ => transact X l) rest pause
    (fun k n X E l _ => told k n X E l) all each inside

end

/-- Exchanges up to a ledger go on from those of an arena. -/
structure Follows (keys : Set Address) (A : Arena ι α) (X : List (Exchange ι)) (l : Ledger) : Prop where
  exchanges : ∃ later, X = A.exchanges ++ later ∧ ∀ x ∈ later, Ledger.NoMore keys A.ledger x.before
  ledger : Ledger.NoMore keys A.ledger l

/-- Up to a ledger, requests only become more from each exchange to the next. -/
structure Climbs (keys : Set Address) (X : List (Exchange ι)) (l : Ledger) : Prop where
  each : ∀ x ∈ X, Ledger.NoMore keys x.before x.after ∧ Ledger.NoMore keys x.after l
  order : X.Pairwise fun x y => Ledger.NoMore keys x.after y.before

namespace Climbs

omit [DecidableEq ι]

variable {keys : Set Address} {X : List (Exchange ι)} {l l' : Ledger}

theorem nil (l : Ledger) : Climbs keys ([] : List (Exchange ι)) l := ⟨by simp, .nil⟩

theorem later (h : Climbs keys X l) (more : Ledger.NoMore keys l l') : Climbs keys X l' :=
  ⟨fun x hx => ⟨(h.each x hx).1, (h.each x hx).2.trans more⟩, h.order⟩

theorem snoc (h : Climbs keys X l) {x : Exchange ι} (before : x.before = l) (after : x.after = l')
    (more : Ledger.NoMore keys l l') : Climbs keys (X ++ [x]) l' := by
  subst before after
  refine ⟨?_, ?_⟩
  · intro y hy
    rcases List.mem_append.1 hy with hy | hy
    · exact (h.later more).each y hy
    · rw [List.mem_singleton.1 hy]
      exact ⟨more, .refl _⟩
  · rw [List.pairwise_append]
    refine ⟨h.order, List.pairwise_singleton .., ?_⟩
    intro y hy z hz
    rw [List.mem_singleton.1 hz]
    exact (h.each y hy).2

/-- Of two exchanges one was over before the other one began. -/
theorem order_or (h : Climbs keys X l) {x y : Exchange ι} (hx : x ∈ X) (hy : y ∈ X) (other : x ≠ y) :
    Ledger.NoMore keys x.after y.before ∨ Ledger.NoMore keys y.after x.before := by
  let either (x y : Exchange ι) : Prop :=
    Ledger.NoMore keys x.after y.before ∨ Ledger.NoMore keys y.after x.before
  have _ : Std.Symm either := ⟨fun _ _ => Or.symm⟩
  have pairs : X.Pairwise either := h.order.imp .inl
  exact pairs.forall hx hy other

end Climbs

namespace Follows

omit [DecidableEq ι]

variable {keys : Set Address} {A : Arena ι α} {X : List (Exchange ι)} {l l' : Ledger}

theorem refl (A : Arena ι α) : Follows keys A A.exchanges A.ledger := ⟨⟨[], by simp⟩, .refl _⟩

theorem later (h : Follows keys A X l) (more : Ledger.NoMore keys l l') : Follows keys A X l' :=
  ⟨h.exchanges, h.ledger.trans more⟩

theorem snoc (h : Follows keys A X l) {x : Exchange ι} (before : x.before = l)
    (more : Ledger.NoMore keys l l') : Follows keys A (X ++ [x]) l' := by
  obtain ⟨new, rfl, after⟩ := h.exchanges
  refine ⟨⟨new ++ [x], List.append_assoc .., ?_⟩, h.ledger.trans more⟩
  intro y hy
  rcases List.mem_append.1 hy with hy | hy
  · exact after y hy
  · rw [List.mem_singleton.1 hy, before]
    exact h.ledger

end Follows

end Arena

end Randomness
