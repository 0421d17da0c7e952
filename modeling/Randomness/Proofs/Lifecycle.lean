import Randomness.Account.Generations
import Randomness.Proofs.Frame
import Randomness.Proofs.Matching

/-!
The life of a request: what one command does to it, and to the counter that numbers it.
-/

namespace Randomness

namespace Registry

def request? (σ : Registry) : Generation → Address → UInt64 → Option RequestAccount
  | .legacy, P, id => (σ (.legacyRequest P id)).map .legacy
  | .subscription, P, id => (σ (.wordsRequest P id)).map .subscription

def config? (σ : Registry) : Generation → Address → Option ConfigAccount
  | .legacy, P => (σ (.legacyConfig P)).map .legacy
  | .subscription, P => (σ (.coordinatorConfig P)).map .subscription

/-- The configuration's counter; zero before there is one. -/
def requestCount (σ : Registry) (g : Generation) (P : Address) : Nat :=
  (σ.config? g P).elim 0 fun c => c.requestCounter.toNat

section

variable {σ : Registry} {t : Site} {g : Generation} {P : Address} {id : UInt64}

theorem request?_put_of_ne (r : t.kind.Record) (h : ⟨P, .request g id⟩ ≠ t) :
    (σ.put t r).request? g P id = σ.request? g P id := by
  cases g <;> simp only [request?, put_of_ne σ r h]

theorem request?_of_vacant (h : σ ⟨P, .request g id⟩ = none) : σ.request? g P id = none := by
  cases g <;> simp only [request?, h, Option.map_none]

theorem request?_congr {τ : Registry} (same : τ ⟨P, .request g id⟩ = σ ⟨P, .request g id⟩) :
    τ.request? g P id = σ.request? g P id := by
  cases g <;> simp only [request?, same]

theorem request?_put_legacyRequest (r : LegacyRequest) :
    (σ.put (.legacyRequest P id) r).request? .legacy P id = some (.legacy r) := by
  simp only [request?, put_self, Option.map_some]

theorem request?_put_wordsRequest (r : WordsRequest) :
    (σ.put (.wordsRequest P id) r).request? .subscription P id = some (.subscription r) := by
  simp only [request?, put_self, Option.map_some]

theorem requestCount_congr {τ : Registry} (same : τ ⟨P, .config g⟩ = σ ⟨P, .config g⟩) :
    τ.requestCount g P = σ.requestCount g P := by
  cases g <;> simp only [requestCount, config?, same]

theorem requestCount_of_vacant (h : σ ⟨P, .config g⟩ = none) : σ.requestCount g P = 0 := by
  cases g <;> simp [requestCount, config?, h]

theorem requestCount_of_legacyConfig {c : LegacyConfig} (h : σ (.legacyConfig P) = some c) :
    σ.requestCount .legacy P = c.requestCounter.toNat := by
  simp [requestCount, config?, h, ConfigAccount.requestCounter]

theorem requestCount_of_coordinatorConfig {c : CoordinatorConfig} (h : σ (.coordinatorConfig P) = some c) :
    σ.requestCount .subscription P = c.requestCounter.toNat := by
  simp [requestCount, config?, h, ConfigAccount.requestCounter]

end

end Registry

namespace RequestAccount

/-- The record names its own id, and the bump of its address. -/
def Owned [Crypto] (P : Address) (id : UInt64) : RequestAccount → Prop
  | legacy r => (Site.legacyRequest P id).Owns r
  | subscription r => (Site.wordsRequest P id).Owns r

theorem Owned.requestId_eq [Crypto] {P : Address} {id : UInt64} {r : RequestAccount} (h : r.Owned P id) :
    r.requestId = id := by
  cases r <;> exact h.1

/-- Whether the record's own bytes are accepted. -/
def Legible : RequestAccount → Prop
  | legacy r => Kind.legacyRequest.Legible r
  | subscription r => Kind.wordsRequest.Legible r

/-- What a request is when it has just been made. -/
structure Fresh [Crypto] (P : Address) (id slot : UInt64) (r : RequestAccount) : Prop where
  owned : r.Owned P id
  legible : r.Legible
  pending : r.status = .pending
  randomness : r.randomness = Block.zero 32
  requestSlot : r.requestSlot = slot
  fulfilledSlot : r.fulfilledSlot = 0

end RequestAccount

/-- What one operation can do to a request in the transaction of a slot, if `asked` says whether it
requests it. -/
inductive Turn [Crypto] (P : Address) (id slot : UInt64) (asked : Prop) :
    Option RequestAccount → Option RequestAccount → Prop
  | kept (r : Option RequestAccount) : Turn P id slot asked r r
  | requested {r : RequestAccount} (ask : asked) (fresh : r.Fresh P id slot) :
      Turn P id slot asked none (some r)
  | fulfilled {r : LegacyRequest} (randomness : Block 32) (pending : r.status = .pending) :
      Turn P id slot asked (some (.legacy r))
        (some (.legacy { r with status := .fulfilled, randomness, fulfilledSlot := slot }))
  | consumed {r : LegacyRequest} (fulfilled : r.status = .fulfilled) :
      Turn P id slot asked (some (.legacy r)) (some (.legacy { r with status := .consumed }))
  | closed {r : LegacyRequest} (consumed : r.status = .consumed) :
      Turn P id slot asked (some (.legacy r)) none
  | delivered {r : WordsRequest} (pending : r.status = .pending) :
      Turn P id slot asked (some (.subscription r)) none

/-- The id that a command requests. -/
def Command.requested? (g : Generation) : Command → Option UInt64
  | requestRandomness _ _ _ id _ => if g = .legacy then some id else none
  | requestRandomWords _ order => if g = .subscription then some order.requestId else none
  | _ => none

theorem Command.requested?_of_not_written {P : Address} {g : Generation} {c : Command}
    (unwritten : (⟨P, .config g⟩ : Site) ∉ c.writes P) : c.requested? g = none := by
  cases c <;> cases g <;> simp_all [writes, requested?]

/-- What a command does to a request, if it changes it; with what it found and what it logs. -/
inductive Command.Handles [Crypto] (x : Scene) (σ : Registry) (P : Address) (id : UInt64) :
    Generation → Command → List LogEntry → Option RequestAccount → Option RequestAccount → Prop
  | requested {g : Generation} {c : Command} {log : List LogEntry} {r : RequestAccount}
      (asks : c.requested? g = some id) (fresh : r.Fresh P id x.slot) : Handles x σ P id g c log none (some r)
  | fulfilled {authority : Address} {randomness : Block 32} {log : List LogEntry} {config : LegacyConfig}
      {r : LegacyRequest} (stored : σ (.legacyConfig P) = some config)
      (proved : x.proves config.authority id randomness = true) (pending : r.status = .pending) :
      Handles x σ P id .legacy (.fulfillRandomness authority id randomness) log (some (.legacy r))
        (some (.legacy { r with status := .fulfilled, randomness, fulfilledSlot := x.slot }))
  | consumed {log : List LogEntry} {r : LegacyRequest} (fulfilled : r.status = .fulfilled) :
      Handles x σ P id .legacy (.consumeRandomness r.requester id) log (some (.legacy r))
        (some (.legacy { r with status := .consumed }))
  | closed {closer : Address} {log : List LogEntry} {r : LegacyRequest} (consumed : r.status = .consumed) :
      Handles x σ P id .legacy (.closeRequest closer id) log (some (.legacy r)) none
  | delivered {authority : Address} {stored : WordsRequest} {randomness : Block 32} {log : List LogEntry}
      {config : CoordinatorConfig} {r : WordsRequest} (names : stored.requestId = id)
      (known : σ (.coordinatorConfig P) = some config)
      (proved : x.proves config.authority id randomness = true) (pending : r.status = .pending)
      (told : ∀ e, .event (.randomWordsFulfilled e) ∈ log ↔ e = ⟨id, randomness, r.consumerProgram⟩) :
      Handles x σ P id .subscription (.fulfillRandomWords authority stored randomness) log
        (some (.subscription r)) none

namespace Command.Does

variable [Crypto] {x : Scene} {σ : Registry} {P : Address} {c : Command} {r : Registry.Result}

theorem handles (h : c.Does x σ P r) (g : Generation) (Q : Address) (id : UInt64) :
    r.1.request? g Q id = σ.request? g Q id ∨
      Q = P ∧ c.Handles x σ P id g r.2 (σ.request? g Q id) (r.1.request? g Q id) := by
  by_cases written : (⟨Q, .request g id⟩ : Site) ∈ c.writes P
  · refine .inr ?_
    cases h with
    | requestRandomness given stored next vacant counted =>
      obtain ⟨rfl, rfl, rfl⟩ : Q = P ∧ g = .legacy ∧ id = _ := by simpa [writes] using written
      rw [Registry.request?_put_of_ne _ (by simp), Registry.request?_put_legacyRequest,
        Registry.request?_of_vacant vacant]
      exact ⟨rfl, .requested rfl ⟨⟨rfl, rfl⟩, trivial, rfl, rfl, rfl, rfl⟩⟩
    | fulfillRandomness stored proved found pending =>
      obtain ⟨rfl, rfl, rfl⟩ : Q = P ∧ g = .legacy ∧ id = _ := by simpa [writes] using written
      rw [Registry.request?_put_legacyRequest, Registry.request?, found]
      exact ⟨rfl, .fulfilled stored proved pending⟩
    | consumeRandomness found own fulfilled =>
      obtain ⟨rfl, rfl, rfl⟩ : Q = P ∧ g = .legacy ∧ id = _ := by simpa [writes] using written
      rw [Registry.request?_put_legacyRequest, Registry.request?, found, ← own]
      exact ⟨rfl, .consumed fulfilled⟩
    | closeRequest found consumed =>
      obtain ⟨rfl, rfl, rfl⟩ : Q = P ∧ g = .legacy ∧ id = _ := by simpa [writes] using written
      rw [Registry.request?_of_vacant (Registry.drop_self ..), Registry.request?, found]
      exact ⟨rfl, .closed consumed⟩
    | requestRandomWords stored found registered allowed price paid next few vacant used counted =>
      obtain ⟨rfl, rfl, rfl⟩ : Q = P ∧ g = .subscription ∧ id = _ := by simpa [writes] using written
      rw [Registry.request?_put_of_ne _ (by simp), Registry.request?_put_of_ne _ (by simp),
        Registry.request?_put_wordsRequest, Registry.request?_of_vacant vacant]
      refine ⟨rfl, .requested rfl ⟨⟨rfl, rfl⟩, ⟨fun h => (by cases h), ?_⟩, rfl, rfl, rfl, rfl⟩⟩
      exact (Nat.mod_le _ _).trans few
    | fulfillRandomWords known proved found pending =>
      obtain ⟨rfl, rfl, rfl⟩ : Q = P ∧ g = .subscription ∧ id = _ := by simpa [writes] using written
      rw [Registry.request?_of_vacant (Registry.drop_self ..), Registry.request?, found]
      exact ⟨rfl, .delivered rfl known proved pending (by simp)⟩
    | _ => simp [writes] at written
  · exact .inl (Registry.request?_congr (h.frame written))

theorem turn (h : c.Does x σ P r) (g : Generation) (Q : Address) (id : UInt64) :
    Turn Q id x.slot (Q = P ∧ c.requested? g = some id) (σ.request? g Q id) (r.1.request? g Q id) := by
  rcases h.handles g Q id with same | ⟨rfl, handles⟩
  · rw [same]
    exact .kept _
  · generalize σ.request? g Q id = before at handles ⊢
    generalize r.1.request? g Q id = after at handles ⊢
    cases handles with
    | requested asks fresh => exact .requested ⟨rfl, asks⟩ fresh
    | fulfilled stored proved pending => exact .fulfilled _ pending
    | consumed fulfilled => exact .consumed fulfilled
    | closed consumed => exact .closed consumed
    | delivered names known proved pending => exact .delivered pending

/-- The id that is requested is the counter. -/
theorem requested_eq (h : c.Does x σ P r) {g : Generation} {id : UInt64} (hid : c.requested? g = some id) :
    id.toNat = σ.requestCount g P := by
  cases h with
  | requestRandomness given stored next vacant counted =>
    obtain ⟨rfl, ids⟩ := Option.ite_none_right_eq_some.1 hid
    cases ids
    rw [Registry.requestCount_of_legacyConfig stored, next]
  | requestRandomWords stored found registered allowed price paid next few vacant used counted =>
    obtain ⟨rfl, ids⟩ := Option.ite_none_right_eq_some.1 hid
    cases ids
    rw [Registry.requestCount_of_coordinatorConfig stored, next]
  | _ => cases hid

/-- The counter counts the requests. -/
theorem counts (h : c.Does x σ P r) (g : Generation) (Q : Address) :
    r.1.requestCount g Q = σ.requestCount g Q + if Q = P ∧ (c.requested? g).isSome then 1 else 0 := by
  by_cases written : (⟨Q, .config g⟩ : Site) ∈ c.writes P
  · obtain ⟨τ, log⟩ := r
    change τ.requestCount g Q = _
    cases h with
    | initializeLegacy vacant =>
      obtain ⟨rfl, rfl⟩ : Q = P ∧ g = .legacy := by simpa [writes] using written
      rw [Registry.requestCount_of_legacyConfig (Registry.put_self ..),
        Registry.requestCount_of_vacant (g := .legacy) vacant]
      simp [requested?]
    | requestRandomness given stored next vacant counted =>
      obtain ⟨rfl, rfl⟩ : Q = P ∧ g = .legacy := by simpa [writes] using written
      rw [Registry.requestCount_of_legacyConfig (Registry.put_self ..),
        Registry.requestCount_of_legacyConfig stored]
      simpa [requested?] using Coordinator.next64_eq_ok counted
    | initializeSubscription vacant =>
      obtain ⟨rfl, rfl⟩ : Q = P ∧ g = .subscription := by simpa [writes] using written
      rw [Registry.requestCount_of_coordinatorConfig (Registry.put_self ..),
        Registry.requestCount_of_vacant (g := .subscription) vacant]
      simp [requested?]
    | createSubscription stored next vacant counted =>
      obtain ⟨rfl, rfl⟩ : Q = P ∧ g = .subscription := by simpa [writes] using written
      rw [Registry.requestCount_of_coordinatorConfig (Registry.put_self ..),
        Registry.requestCount_of_coordinatorConfig stored]
      simp [requested?]
    | requestRandomWords stored found registered allowed price paid next few vacant used counted =>
      obtain ⟨rfl, rfl⟩ : Q = P ∧ g = .subscription := by simpa [writes] using written
      rw [Registry.requestCount_congr (g := .subscription) (Registry.put_of_ne _ _ (by simp)),
        Registry.requestCount_of_coordinatorConfig (Registry.put_self ..),
        Registry.requestCount_of_coordinatorConfig stored]
      simpa [requested?] using Coordinator.next64_eq_ok counted
    | _ => simp [writes] at written
  · have quiet : ¬ (Q = P ∧ (c.requested? g).isSome) := by
      intro held
      obtain ⟨rfl, asks⟩ := held
      rw [requested?_of_not_written written] at asks
      cases asks
    rw [Registry.requestCount_congr (h.frame written), if_neg quiet, Nat.add_zero]

end Command.Does

namespace Operation

/-- The id that an operation requests of the coordinator at `P`. What is told to the signature's program
requests nothing. -/
def requested? (g : Generation) (P : Address) : Operation → Option UInt64
  | command Q c => if P = Q ∧ Q ≠ Instruction.signatureProgram then c.requested? g else none
  | signature _ _ => none

theorem requested?_command {P Q : Address} {c : Command} {g : Generation}
    (proper : P ≠ Instruction.signatureProgram) :
    (command P c).requested? g Q = if Q = P then c.requested? g else none := by
  simp [requested?, proper]

variable [Crypto] {x : Scene} {σ : Registry} {o : Operation} {r : Registry.Result}

/-- An accepted operation does nothing at all, or what its command does. -/
theorem step_cases (h : o.step x σ = some r) :
    (r = (σ, []) ∧ ∀ g P, o.requested? g P = none) ∨
      ∃ P c, o = command P c ∧ P ≠ Instruction.signatureProgram ∧ c.signer ∈ x.signers ∧ c.Does x σ P r := by
  cases o with
  | signature secret message =>
    cases h
    exact .inl ⟨rfl, fun g P => rfl⟩
  | command P c =>
    rw [step] at h
    split at h
    · next same =>
      cases h
      exact .inl ⟨rfl, fun g Q => if_neg fun both => both.2 same⟩
    · next proper =>
      obtain ⟨signed, h⟩ := Option.ite_none_right_eq_some.1 h
      exact .inr ⟨P, c, rfl, proper, signed, Command.does_of_effect h⟩

theorem turn (h : o.step x σ = some r) (g : Generation) (Q : Address) (id : UInt64) :
    Turn Q id x.slot (o.requested? g Q = some id) (σ.request? g Q id) (r.1.request? g Q id) := by
  rcases step_cases h with ⟨rfl, _⟩ | ⟨P, c, rfl, proper, _, does⟩
  · exact .kept _
  · have asked : ((command P c).requested? g Q = some id) = (Q = P ∧ c.requested? g = some id) := by
      rw [requested?_command proper, Option.ite_none_right_eq_some]
    rw [asked]
    exact does.turn g Q id

theorem requested_eq (h : o.step x σ = some r) {g : Generation} {Q : Address} {id : UInt64}
    (hid : o.requested? g Q = some id) : id.toNat = σ.requestCount g Q := by
  rcases step_cases h with ⟨_, nothing⟩ | ⟨P, c, rfl, proper, _, does⟩
  · rw [nothing] at hid
    cases hid
  · rw [requested?_command proper, Option.ite_none_right_eq_some] at hid
    obtain ⟨rfl, hid⟩ := hid
    exact does.requested_eq hid

theorem counts (h : o.step x σ = some r) (g : Generation) (Q : Address) :
    r.1.requestCount g Q = σ.requestCount g Q + if (o.requested? g Q).isSome then 1 else 0 := by
  rcases step_cases h with ⟨rfl, nothing⟩ | ⟨P, c, rfl, proper, _, does⟩
  · simp [nothing]
  · rw [does.counts g Q, requested?_command proper]
    by_cases same : Q = P <;> simp [same]

end Operation

namespace RequestAccount

/-- A request names its own id and bump; a pending one has no answer yet, and an answer comes no earlier
than the request. -/
structure Sound [Crypto] (P : Address) (id slot : UInt64) (r : RequestAccount) : Prop where
  owned : r.Owned P id
  legible : r.Legible
  requestSlot : r.requestSlot ≤ slot
  pending : r.status = .pending → r.randomness = Block.zero 32 ∧ r.fulfilledSlot = 0
  answered : r.status ≠ .pending → r.requestSlot ≤ r.fulfilledSlot

/-- The order in which a request is pending, fulfilled and consumed. -/
def stage (r : RequestAccount) : Nat := r.status.code.toNat

/-- All but status and answer stays, the status never goes back, and an answer stays. -/
def Becomes : RequestAccount → RequestAccount → Prop
  | legacy r, legacy q =>
    q = { r with status := q.status, randomness := q.randomness, fulfilledSlot := q.fulfilledSlot } ∧
      (legacy r).stage ≤ (legacy q).stage ∧
      (r.status ≠ .pending → q.randomness = r.randomness ∧ q.fulfilledSlot = r.fulfilledSlot)
  | subscription r, subscription q => q = r
  | _, _ => False

theorem Becomes.refl (r : RequestAccount) : r.Becomes r := by
  cases r with
  | legacy r => exact ⟨rfl, le_rfl, fun _ => ⟨rfl, rfl⟩⟩
  | subscription r => rfl

theorem stage_pos {s : RequestStatus} : s ≠ .pending ↔ 0 < s.code.toNat := by
  cases s <;> decide

theorem Becomes.trans {r q p : RequestAccount} (h : r.Becomes q) (h' : q.Becomes p) : r.Becomes p := by
  cases r with
  | legacy r =>
    cases q with
    | legacy q =>
      cases p with
      | legacy p =>
        obtain ⟨same, later, answer⟩ := h
        obtain ⟨same', later', answer'⟩ := h'
        refine ⟨?_, later.trans later', ?_⟩
        · calc
            p = { q with status := p.status, randomness := p.randomness, fulfilledSlot := p.fulfilledSlot } :=
              same'
            _ = { r with status := p.status, randomness := p.randomness, fulfilledSlot := p.fulfilledSlot } :=
              by rw [same]
        · intro answered
          have still : q.status ≠ .pending := stage_pos.2 ((stage_pos.1 answered).trans_le later)
          obtain ⟨random, slot⟩ := answer answered
          obtain ⟨random', slot'⟩ := answer' still
          exact ⟨random'.trans random, slot'.trans slot⟩
      | subscription p => exact h'.elim
    | subscription q => exact h.elim
  | subscription r =>
    cases q with
    | legacy q => exact h.elim
    | subscription q =>
      cases h
      exact h'

end RequestAccount

namespace Turn

variable [Crypto] {P : Address} {id slot : UInt64} {asked : Prop} {r q : RequestAccount}
  {before after : Option RequestAccount}

theorem becomes (h : Turn P id slot asked (some r) (some q)) : r.Becomes q := by
  cases h with
  | kept => exact .refl r
  | fulfilled randomness pending =>
    refine ⟨rfl, ?_, fun answered => absurd pending answered⟩
    simp only [RequestAccount.stage, RequestAccount.status, pending]
    decide
  | consumed fulfilled =>
    refine ⟨rfl, ?_, fun _ => ⟨rfl, rfl⟩⟩
    simp only [RequestAccount.stage, RequestAccount.status, fulfilled]
    decide

theorem sound (h : Turn P id slot asked before after) (start : ∀ r ∈ before, r.Sound P id slot) :
    ∀ r ∈ after, r.Sound P id slot := by
  intro r hr
  cases h with
  | kept => exact start r hr
  | requested ask fresh =>
    cases hr
    refine ⟨fresh.owned, fresh.legible, UInt64.le_of_eq fresh.requestSlot, ?_, ?_⟩
    · exact fun _ => ⟨fresh.randomness, fresh.fulfilledSlot⟩
    · exact fun answered => absurd fresh.pending answered
  | fulfilled randomness pending =>
    have old := start _ rfl
    cases hr
    exact ⟨old.owned, old.legible, old.requestSlot, nofun, fun _ => old.requestSlot⟩
  | consumed fulfilled =>
    have old := start _ rfl
    cases hr
    refine ⟨old.owned, old.legible, old.requestSlot, nofun, fun _ => old.answered ?_⟩
    simp [RequestAccount.status, fulfilled]
  | closed | delivered => cases hr

end Turn

end Randomness
