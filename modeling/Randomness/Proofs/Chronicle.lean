import Randomness.Proofs.History
import Randomness.Proofs.Lifecycle
import Randomness.Proofs.Refinement

/-!
Requests in the history of a ledger: no id is used twice, and no request comes back.
-/

namespace Randomness

theorem Registry.legible_of_requests {σ : Registry}
    (h : ∀ g P id r, σ.request? g P id = some r → r.Legible) : σ.Legible := by
  intro held r hr
  obtain ⟨P, p⟩ := held
  match p with
  | .config .legacy | .config .subscription | .subscription _ | .consumer _ _ | .request .legacy _ => trivial
  | .request .subscription id => exact h .subscription P id (.subscription r) (by simp [request?, hr])

/-- Each moment starts with the accounts that the one before it left. -/
def Linked (s : Accounts) : List Moment → Accounts → Prop
  | [], t => s = t
  | m :: H, t => m.before = s ∧ Linked m.after H t

theorem Linked.snoc {s t : Accounts} {H : List Moment} (h : Linked s H t) {m : Moment} (hm : m.before = t) :
    Linked s (H ++ [m]) m.after := by
  induction H generalizing s with
  | nil => exact ⟨hm.trans h.symm, rfl⟩
  | cons n H ih => exact ⟨h.1, ih h.2⟩

section

variable [Crypto] {keys : Set Address} {s : Accounts} {σ : Registry}

namespace Fits

theorem request?_eq (hf : Fits keys s σ) (legible : σ.Legible) {P : Address} (hP : P ∈ keys)
    (g : Generation) (id : UInt64) : s.records.request? g P id = σ.request? g P id := by
  cases g <;> simp only [Registry.request?] <;> rw [hf.records_eq legible (by simpa using hP)]

theorem requestCount_eq (hf : Fits keys s σ) (legible : σ.Legible) {P : Address} (hP : P ∈ keys)
    (g : Generation) : s.records.requestCount g P = σ.requestCount g P := by
  cases g <;> simp only [Registry.requestCount, Registry.config?] <;>
    rw [hf.records_eq legible (by simpa using hP)]

end Fits

/-- Every request is numbered below the counter, and sound at the slot. -/
def Registry.Sound (σ : Registry) (slot : UInt64) : Prop :=
  ∀ g P id r, σ.request? g P id = some r → r.Sound P id slot ∧ id.toNat < σ.requestCount g P

theorem Registry.Sound.legible {slot : UInt64} (h : σ.Sound slot) : σ.Legible :=
  Registry.legible_of_requests fun g P id r hr => (h g P id r hr).1.legible

theorem Registry.Sound.step {x : Scene} {o : Operation} {r : Registry.Result} (h : σ.Sound x.slot)
    (stepped : o.step x σ = some r) : r.1.Sound x.slot := by
  intro g P id q hq
  have turn := Operation.turn stepped g P id
  refine ⟨turn.sound (fun p hp => (h g P id p hp).1) q hq, ?_⟩
  rw [Operation.counts stepped g P]
  cases hp : σ.request? g P id with
  | some p => exact Nat.lt_add_right _ (h g P id p hp).2
  | none =>
    rw [hp, hq] at turn
    cases turn with
    | requested ask fresh =>
      rw [Operation.requested_eq stepped ask, ask]
      exact Nat.lt_succ_self _

theorem Registry.Sound.later {slot slot' : UInt64} (h : σ.Sound slot)
    (le : slot.toNat ≤ slot'.toNat) : σ.Sound slot' := by
  intro g P id r hr
  obtain ⟨sound, below⟩ := h g P id r hr
  have past : r.requestSlot ≤ slot' := UInt64.le_trans sound.requestSlot (UInt64.le_iff_toNat_le.2 le)
  exact ⟨{ sound with requestSlot := past }, below⟩

namespace Moment

/-- What a moment does to one request: a turn of its life, which leaves it sound and encoded in its
account. -/
structure Turns (m : Moment) (g : Generation) (P : Address) (id : UInt64) : Prop where
  turn : Turn P id m.slot (m.operation.requested? g P = some id) (m.before.records.request? g P id)
    (m.after.records.request? g P id)
  sound : ∀ r, m.after.records.request? g P id = some r → r.Sound P id m.slot
  written : ∀ a b, Site.address ⟨P, .request g id⟩ = .ok (a, b) →
    m.after.get? a = (m.after.records ⟨P, .request g id⟩).map (Kind.encode _)

/-- What a moment did to a request still binds later records: a request that it removed is not there, and
one that it left is at most further on. -/
structure Precedes (m : Moment) (τ : Registry) (g : Generation) (P : Address) (id : UInt64) : Prop where
  gone : m.before.records.request? g P id ≠ none → m.after.records.request? g P id = none →
    τ.request? g P id = none
  becomes : ∀ r q, m.after.records.request? g P id = some r → τ.request? g P id = some q → r.Becomes q

/-- A request that was there has an id below the counter. -/
def Below (m : Moment) (τ : Registry) (g : Generation) (P : Address) (id : UInt64) : Prop :=
  m.before.records.request? g P id ≠ none ∨ m.after.records.request? g P id ≠ none →
    id.toNat < τ.requestCount g P

theorem Precedes.congr {m : Moment} {τ : Registry} {g : Generation} {P : Address} {id : UInt64}
    (h : m.Precedes σ g P id) (same : τ.request? g P id = σ.request? g P id) : m.Precedes τ g P id := by
  constructor
  · rw [same]
    exact h.gone
  · rw [same]
    exact h.becomes

theorem Precedes.step {m : Moment} {x : Scene} {o : Operation} {r : Registry.Result} {g : Generation}
    {P : Address} {id : UInt64} (h : m.Precedes σ g P id) (below : m.Below σ g P id)
    (stepped : o.step x σ = some r) : m.Precedes r.1 g P id := by
  have turn := Operation.turn stepped g P id
  -- A request can only appear if its id is the counter, and all former ids are below.
  have new (vacant : σ.request? g P id = none) (q : RequestAccount) (hq : r.1.request? g P id = some q) :
      m.before.records.request? g P id = none ∧ m.after.records.request? g P id = none := by
    rw [vacant, hq] at turn
    cases turn with
    | requested ask fresh =>
      have counter := Operation.requested_eq stepped ask
      have never : ¬ (m.before.records.request? g P id ≠ none ∨ m.after.records.request? g P id ≠ none) :=
        fun was => absurd (below was) (by omega)
      simpa using never
  constructor
  · intro was removed
    have vacant := h.gone was removed
    cases hq : r.1.request? g P id with
    | none => rfl
    | some q => exact absurd (new vacant q hq).1 was
  · intro p q hp hq
    cases hσ : σ.request? g P id with
    | none =>
      rw [(new hσ q hq).2] at hp
      cases hp
    | some p' =>
      rw [hσ, hq] at turn
      exact (h.becomes p p' hp hσ).trans turn.becomes

end Moment

/-- Accounts, their registry and a slot as a history has led to them. -/
structure Chronicle (keys : Set Address) (s : Accounts) (σ : Registry) (slot : UInt64) (H : List Moment) :
    Prop where
  sound : σ.Sound slot
  linked : Linked Accounts.empty H s
  ids : ∀ g P, (H.filterMap fun m => m.operation.requested? g P).map UInt64.toNat =
    List.range (σ.requestCount g P)
  turns : ∀ m ∈ H, ∀ g P id, P ∈ keys → m.Turns g P id
  below : ∀ m ∈ H, ∀ g P id, P ∈ keys → m.Below σ g P id
  precedes : ∀ m ∈ H, ∀ g P id, P ∈ keys → m.Precedes σ g P id
  order : H.Pairwise fun m n => ∀ g P id, P ∈ keys → m.Precedes n.after.records g P id

namespace Chronicle

theorem start (slot : UInt64) : Chronicle keys Accounts.empty Registry.empty slot [] where
  sound := by
    intro g P id r h
    cases g <;> cases h
  linked := rfl
  ids := by
    intro g P
    cases g <;> rfl
  turns := by simp
  below := by simp
  precedes := by simp
  order := .nil

theorem later {slot slot' : UInt64} {H : List Moment} (h : Chronicle keys s σ slot H)
    (le : slot.toNat ≤ slot'.toNat) : Chronicle keys s σ slot' H where
  sound := h.sound.later le
  linked := h.linked
  ids := h.ids
  turns := h.turns
  below := h.below
  precedes := h.precedes
  order := h.order

theorem step {x : Surroundings} {s' : Accounts} {τ : Registry} {H : List Moment} {o : Operation}
    {log : List LogEntry} (h : Chronicle keys s σ x.slot H) (hf : Fits keys s σ) (hf' : Fits keys s' τ)
    (stepped : o.step x.scene σ = some (τ, log)) :
    Chronicle keys s' τ x.slot (H ++ [⟨o, x.slot, s, s'⟩]) := by
  have sound : τ.Sound x.slot := Registry.Sound.step (x := x.scene) h.sound stepped
  have before (g : Generation) {P : Address} (hP : P ∈ keys) (id : UInt64) :=
    hf.request?_eq h.sound.legible hP g id
  have after (g : Generation) {P : Address} (hP : P ∈ keys) (id : UInt64) :=
    hf'.request?_eq sound.legible hP g id
  have grows (g : Generation) (P : Address) : σ.requestCount g P ≤ τ.requestCount g P := by
    rw [Operation.counts stepped g P]
    omega
  have turns (g : Generation) (P : Address) (id : UInt64) (hP : P ∈ keys) :
      Moment.Turns ⟨o, x.slot, s, s'⟩ g P id := by
    constructor
    · rw [before g hP, after g hP]
      exact Operation.turn stepped g P id
    · rw [after g hP]
      exact fun r hr => (sound g P id r hr).1
    · intro a b ha
      have inside : Site.Over keys ⟨P, .request g id⟩ := by simpa using hP
      rw [hf'.get?_eq inside ha, hf'.records_eq sound.legible inside]
  have below (g : Generation) (P : Address) (id : UInt64) (hP : P ∈ keys) :
      Moment.Below ⟨o, x.slot, s, s'⟩ τ g P id := by
    rw [Moment.Below, before g hP, after g hP]
    intro held
    rcases held with was | is
    · obtain ⟨r, hr⟩ := Option.ne_none_iff_exists'.1 was
      exact (h.sound g P id r hr).2.trans_le (grows g P)
    · obtain ⟨r, hr⟩ := Option.ne_none_iff_exists'.1 is
      exact (sound g P id r hr).2
  have precedes (m : Moment) (hm : m ∈ H) (g : Generation) (P : Address) (id : UInt64) (hP : P ∈ keys) :
      m.Precedes τ g P id :=
    (h.precedes m hm g P id hP).step (h.below m hm g P id hP) stepped
  refine ⟨sound, h.linked.snoc rfl, ?_, ?_, ?_, ?_, ?_⟩
  · intro g P
    rw [List.filterMap_append, List.map_append, h.ids g P, Operation.counts stepped g P]
    cases hid : o.requested? g P with
    | none => simp [hid]
    | some id => simp [hid, List.range_succ, Operation.requested_eq stepped hid]
  · intro m hm g P id hP
    rcases List.mem_append.1 hm with hm | hm
    · exact h.turns m hm g P id hP
    · rw [List.mem_singleton.1 hm]
      exact turns g P id hP
  · intro m hm g P id hP
    rcases List.mem_append.1 hm with hm | hm
    · exact fun was => (h.below m hm g P id hP was).trans_le (grows g P)
    · rw [List.mem_singleton.1 hm]
      exact below g P id hP
  · intro m hm g P id hP
    rcases List.mem_append.1 hm with hm | hm
    · exact precedes m hm g P id hP
    · rw [List.mem_singleton.1 hm]
      constructor
      · intro _ removed
        rwa [after g hP] at removed
      · intro r q hr hq
        rw [after g hP, hq] at hr
        cases hr
        exact .refl _
  · rw [List.pairwise_append]
    refine ⟨h.order, List.pairwise_singleton .., ?_⟩
    intro m hm n hn g P id hP
    rw [List.mem_singleton.1 hn]
    exact (precedes m hm g P id hP).congr (after g hP id)

end Chronicle

/-- Every history is a chronicle. -/
theorem Ledger.chronicle (distinct : DistinctAddresses keys) (ts : List Submission)
    (inside : ∀ t ∈ ts, t.Over keys) :
    ∃ σ, Fits keys (history ts).1.accounts σ ∧
      Chronicle keys (history ts).1.accounts σ (history ts).1.slot (history ts).2 :=
  history_induction (fun _ _ _ _ _ _ _ _ h hf hf' _ stepped => h.step hf hf' stepped)
    (fun _ _ _ _ _ le h => h.later le) distinct (Chronicle.start _) ts inside

/-- No request is replayed, rewound or brought back. Whatever transactions were submitted to a fresh
ledger: the requested ids are numbered from zero in the order of their execution, as many as the counter
says; each operation does one turn of a request's life, or leaves it; and what has been removed stays
away, while what stays only moves on. -/
theorem Ledger.requests_never_return (distinct : DistinctAddresses keys) (ts : List Submission)
    (inside : ∀ t ∈ ts, t.Over keys) {P : Address} (hP : P ∈ keys) (g : Generation) :
    Linked Accounts.empty (history ts).2 (history ts).1.accounts ∧
    ((history ts).2.filterMap fun m => m.operation.requested? g P).map UInt64.toNat =
      List.range ((history ts).1.accounts.records.requestCount g P) ∧
    ∀ id, (∀ m ∈ (history ts).2, m.Turns g P id) ∧
      (history ts).2.Pairwise fun m n => m.Precedes n.after.records g P id := by
  obtain ⟨σ, hf, h⟩ := chronicle distinct ts inside
  refine ⟨h.linked, ?_, ?_⟩
  · rw [h.ids g P, hf.requestCount_eq h.sound.legible hP g]
  · intro id
    exact ⟨fun m hm => h.turns m hm g P id hP, h.order.imp fun precedes => precedes g P id hP⟩

end

namespace Recorded

def request (id : UInt64) (callback : Option Address) : Submission where
  operations := [.command program (.requestRandomness consumer program callback id (List.replicate 32 4))]
  signers := [consumer]

def replays : List Submission := [opening, request 0 none, request 1 (some program)]

/-- After the opening, a second request with the id of the first one is refused; one with the next id is
not. -/
theorem replay_refused :
    ((@Ledger.history crypto replays).2.filterMap fun m => m.operation.requested? .legacy program) = [0, 1] ∧
      ∀ m ∈ (@Ledger.history crypto replays).2, @Moment.Turns crypto m .legacy program 0 := by
  have inside : ∀ t ∈ replays, t.Over Set.univ := by
    simp [Submission.Over, replays, opening, request, Operation.Over]
  obtain ⟨_, ids, requests⟩ := @Ledger.requests_never_return crypto Set.univ distinct replays inside program
    (Set.mem_univ program) .legacy
  have count : (@Accounts.records crypto (@Ledger.history crypto replays).1.accounts).requestCount .legacy
      program = 2 := by decide +kernel
  have range : List.range 2 = [0, 1].map UInt64.toNat := by decide
  rw [count, range] at ids
  exact ⟨(List.map_inj_right fun _ _ => UInt64.toNat_inj.1).1 ids, (requests 0).1⟩

end Recorded

end Randomness
