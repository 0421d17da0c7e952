import Randomness.Proofs.Chronicle
import Randomness.Proofs.Roster

/-!
The records behind a ledger that transactions have led to, and what each further transaction keeps of
them.
-/

namespace Randomness

theorem Registry.find_of_legible {σ : Registry} (legible : σ.Legible) {t : Site} {r : t.kind.Record}
    (stored : σ t = some r) : σ.find t = some r :=
  find_eq_some.2 ⟨stored, legible t r stored⟩

/-- If the records can be read, the conditions of a command are all that it needs. -/
theorem Command.Does.effect [Crypto] {x : Scene} {σ : Registry} {P : Address} {c : Command}
    {r : Registry.Result} (h : c.Does x σ P r) (legible : σ.Legible) : c.effect x σ P = some r := by
  have find (t : Site) (r : t.kind.Record) (stored : σ t = some r) : σ.find t = some r :=
    Registry.find_of_legible legible stored
  cases h with
  | initializeLegacy vacant =>
    simp [Command.effect, Registry.initializeLegacy, vacant]
  | requestRandomness given stored next vacant counted =>
    rw [next] at counted
    simp [Command.effect, Registry.requestRandomness, given, find _ _ stored, next, vacant, counted,
      Except.toOption]
  | fulfillRandomness stored proved found pending =>
    simp [Command.effect, Registry.fulfillRandomness, find _ _ stored, proved, find _ _ found, pending]
  | consumeRandomness found own fulfilled =>
    simp [Command.effect, Registry.consumeRandomness, find _ _ found, own, fulfilled]
  | closeRequest found consumed =>
    simp [Command.effect, Registry.closeRequest, find _ _ found, consumed]
  | initializeSubscription vacant =>
    simp [Command.effect, Registry.initializeSubscription, vacant]
  | createSubscription stored next vacant counted =>
    rw [next] at counted
    simp [Command.effect, Registry.createSubscription, find _ _ stored, next, vacant, counted,
      Except.toOption]
  | fundSubscription found fits =>
    simp [Command.effect, Registry.fundSubscription, find _ _ found, fits]
  | addConsumer found own vacant counted =>
    simp [Command.effect, Registry.addConsumer, find _ _ found, own, vacant, counted, Except.toOption]
  | removeConsumer found own registered counted =>
    simp [Command.effect, Registry.removeConsumer, find _ _ found, own, find _ _ registered, counted,
      Except.toOption]
  | cancelSubscription found own unused =>
    simp [Command.effect, Registry.cancelSubscription, find _ _ found, own, unused]
  | requestRandomWords stored found registered allowed price paid next few vacant used counted =>
    rw [next] at counted
    simp [Command.effect, Registry.requestRandomWords, find _ _ stored, find _ _ found, find _ _ registered,
      allowed, price, paid, next, few, vacant, used, counted, Except.toOption]
  | fulfillRandomWords known proved found pending =>
    simp [Command.effect, Registry.fulfillRandomWords, find _ _ known, proved, find _ _ found, pending]

/-- The signature's program has no records. -/
def Registry.Plain (σ : Registry) : Prop := ∀ t : Site, t.program = Instruction.signatureProgram → σ t = none

section

variable [Crypto]

theorem Operation.plain {x : Scene} {σ : Registry} {o : Operation} {r : Registry.Result}
    (h : o.step x σ = some r) (start : σ.Plain) : r.1.Plain := by
  rcases step_cases h with ⟨rfl, _⟩ | ⟨P, c, _, proper, _, does⟩
  · exact start
  · intro t ht
    have other : t.program ≠ P := fun same => proper (same.symm.trans ht)
    rw [does.elsewhere other]
    exact start t ht

/-- Accounts at a slot with the records behind them, as transactions have left them. -/
structure Backed (keys : Set Address) (s : Accounts) (σ : Registry) (slot : UInt64) : Prop where
  fits : Fits keys s σ
  sound : σ.Sound slot
  plain : σ.Plain
  counted : σ.Counted

namespace Backed

variable {keys : Set Address} {s s' : Accounts} {σ τ : Registry} {slot : UInt64}

theorem empty (distinct : DistinctAddresses keys) : Backed keys Accounts.empty Registry.empty slot where
  fits := ⟨Matches.empty, distinct, fun t r h => by cases h⟩
  sound := fun g P id r h => by cases g <;> cases h
  plain := fun _ _ => rfl
  counted := .empty

theorem later {slot' : UInt64} (h : Backed keys s σ slot) (le : slot.toNat ≤ slot'.toNat) :
    Backed keys s σ slot' :=
  { h with sound := h.sound.later le }

theorem step {x : Surroundings} {o : Operation} {log : List LogEntry} (h : Backed keys s σ x.slot)
    (fits : Fits keys s' τ) (stepped : o.step x.scene σ = some (τ, log)) : Backed keys s' τ x.slot where
  fits := fits
  sound := Registry.Sound.step (x := x.scene) h.sound stepped
  plain := Operation.plain stepped h.plain
  counted := Operation.counted stepped h.counted

theorem executed {x : Surroundings} {o : Operation} {i : Instruction} {e : Effect} (h : Backed keys s σ x.slot)
    (inside : o.Over keys) (made : o.instruction = .ok i) (executed : Coordinator.execute x i s = .ok e) :
    ∃ τ, o.step x.scene σ = some (τ, e.log) ∧ Backed keys e.accounts τ x.slot := by
  obtain ⟨τ, stepped, fits⟩ := Operation.stepped_of_executed h.fits inside made executed
  exact ⟨τ, stepped, h.step fits stepped⟩

theorem legible (h : Backed keys s σ slot) : σ.Legible := h.sound.legible

theorem proper (h : Backed keys s σ slot) {t : Site} {r : t.kind.Record} (stored : σ t = some r) :
    t.program ≠ Instruction.signatureProgram := by
  intro same
  rw [h.plain t same] at stored
  cases stored

theorem records_eq (h : Backed keys s σ slot) {t : Site} (ht : t.Over keys) : s.records t = σ t :=
  h.fits.records_eq h.legible ht

theorem request?_eq (h : Backed keys s σ slot) {P : Address} (hP : P ∈ keys) (g : Generation) (id : UInt64) :
    s.records.request? g P id = σ.request? g P id :=
  h.fits.request?_eq h.legible hP g id

theorem requestCount_eq (h : Backed keys s σ slot) {P : Address} (hP : P ∈ keys) (g : Generation) :
    s.records.requestCount g P = σ.requestCount g P :=
  h.fits.requestCount_eq h.legible hP g

/-- The request that the counter counts next is not there yet. -/
theorem next_vacant (h : Backed keys s σ slot) {g : Generation} {P : Address} {n : UInt64}
    (counter : σ.requestCount g P = n.toNat) : σ.request? g P n = none := by
  apply Option.eq_none_iff_forall_ne_some.2
  intro r found
  have below := (h.sound g P n r found).2
  omega

/-- An account at the address of a site is the encoding of the record there. -/
theorem get?_eq_some (h : Backed keys s σ slot) {t : Site} (ht : t.Over keys) {a : Address} {b : UInt8}
    (ha : t.address = .ok (a, b)) {data : Bytes} (found : s.get? a = some data) :
    ∃ r, σ t = some r ∧ t.kind.decode data = .ok r := by
  rw [h.fits.get?_eq ht ha] at found
  obtain ⟨r, hr, rfl⟩ := Option.map_eq_some_iff.1 found
  exact ⟨r, hr, Kind.decode_encode _ r (h.legible t r hr)⟩

/-- A configuration that is read has the counter, and does not belong to the signature's program. -/
theorem config_read (h : Backed keys s σ slot) {g : Generation} {P : Address} (hP : P ∈ keys) {a : Address}
    {b : UInt8} (ha : Site.address ⟨P, .config g⟩ = .ok (a, b)) {data : Bytes} (found : s.get? a = some data)
    {config : ConfigAccount} (read : ConfigAccount.decode g data = .ok config) :
    P ≠ Instruction.signatureProgram ∧ σ.requestCount g P = config.requestCounter.toNat := by
  obtain ⟨r, stored, decoded⟩ := h.get?_eq_some (by simpa using hP) ha found
  constructor
  · exact h.proper stored
  · cases g with
    | legacy =>
      rw [ConfigAccount.decode, show Kind.legacyConfig.decode data = .ok r from decoded] at read
      cases read
      exact Registry.requestCount_of_legacyConfig stored
    | subscription =>
      rw [ConfigAccount.decode, show Kind.coordinatorConfig.decode data = .ok r from decoded] at read
      cases read
      exact Registry.requestCount_of_coordinatorConfig stored

/-- The account of a request is its encoding. -/
theorem request_stored (h : Backed keys s σ slot) {g : Generation} {P : Address} {id : UInt64}
    {r : RequestAccount} (hr : σ.request? g P id = some r) :
    ∃ a b data, Site.address ⟨P, .request g id⟩ = .ok (a, b) ∧ s.get? a = some data ∧
      RequestAccount.decode g data = .ok r := by
  cases g with
  | legacy =>
    obtain ⟨q, hq, rfl⟩ := Option.map_eq_some_iff.1 hr
    obtain ⟨a, b, ha, stored⟩ := h.fits.stored (.legacyRequest P id) q hq
    refine ⟨a, b, _, ha, stored, ?_⟩
    have read := Kind.decode_encode .legacyRequest q (h.legible (.legacyRequest P id) q hq)
    rw [RequestAccount.decode, read]
    rfl
  | subscription =>
    obtain ⟨q, hq, rfl⟩ := Option.map_eq_some_iff.1 hr
    obtain ⟨a, b, ha, stored⟩ := h.fits.stored (.wordsRequest P id) q hq
    refine ⟨a, b, _, ha, stored, ?_⟩
    have read := Kind.decode_encode .wordsRequest q (h.legible (.wordsRequest P id) q hq)
    rw [RequestAccount.decode, read]
    rfl

theorem request_vacant (h : Backed keys s σ slot) {g : Generation} {P : Address} (hP : P ∈ keys) {id : UInt64}
    (vacant : σ.request? g P id = none) {a : Address} {b : UInt8}
    (ha : Site.address ⟨P, .request g id⟩ = .ok (a, b)) : s.get? a = none := by
  rw [h.fits.get?_eq (by simpa using hP) ha]
  cases g <;> simpa only [Registry.request?, Option.map_eq_none_iff] using vacant

end Backed

namespace Ledger

variable {keys : Set Address}

theorem backed (distinct : DistinctAddresses keys) (ts : List Submission) (inside : ∀ t ∈ ts, t.Over keys) :
    ∃ σ, Backed keys (history ts).1.accounts σ (history ts).1.slot := by
  obtain ⟨σ, _, h⟩ := history_induction (C := fun s σ slot _ => Backed keys s σ slot)
    (fun x s σ H o τ log s' h _ fits _ stepped => h.step fits stepped)
    (fun s σ slot slot' H le h => h.later le) distinct (.empty distinct) ts inside
  exact ⟨σ, h⟩

/-- How many requests there have been. -/
def count (l : Ledger) (g : Generation) (P : Address) : Nat := l.accounts.records.requestCount g P

/-- No coordinator has fewer requests later. -/
def NoMore (keys : Set Address) (l l' : Ledger) : Prop := ∀ g, ∀ P ∈ keys, l.count g P ≤ l'.count g P

theorem NoMore.refl (l : Ledger) : NoMore keys l l := fun _ _ _ => le_rfl

theorem NoMore.trans {l l' l'' : Ledger} (h : NoMore keys l l') (h' : NoMore keys l' l'') :
    NoMore keys l l'' :=
  fun g P hP => (h g P hP).trans (h' g P hP)

theorem backed_after {l : Ledger} {σ : Registry} (h : Backed keys l.accounts σ l.slot) {t : Submission}
    (inside : t.Over keys) : (∃ τ, Backed keys (l.after t).1.accounts τ (l.after t).1.slot) ∧
      NoMore keys l (l.after t).1 := by
  obtain ⟨τ, _, after, grown⟩ := after_induction (H := [])
    (C := fun s τ slot _ => Backed keys s τ slot ∧ ∀ g P, σ.requestCount g P ≤ τ.requestCount g P)
    (fun x s υ H o τ log s' h _ fits _ stepped => by
      refine ⟨h.1.step fits stepped, fun g P => (h.2 g P).trans ?_⟩
      rw [Operation.counts stepped g P]
      exact Nat.le_add_right _ _)
    (fun s τ slot slot' H le h => ⟨h.1.later le, h.2⟩) inside h.fits ⟨h, fun _ _ => le_rfl⟩
  refine ⟨⟨τ, after⟩, fun g P hP => ?_⟩
  rw [count, count, h.requestCount_eq hP, after.requestCount_eq hP]
  exact grown g P

theorem noMore_of_one {l l' : Ledger} {σ : Registry} (h : Backed keys l.accounts σ l.slot) {o : Operation}
    (inside : o.Over keys) {i : Instruction} (made : o.instruction = .ok i) {signers : List Address}
    {e : Execution} (executed : l.submit [i] signers = .ok (l', e)) : NoMore keys l l' := by
  have instructions : Submission.instructions ⟨[o], signers⟩ = .ok [i] :=
    Submission.instructions_cons_eq_ok.2 ⟨i, [], made, rfl, rfl⟩
  have after : (l.after ⟨[o], signers⟩).1 = l' := by simp only [after, instructions, executed]
  have grown := (backed_after h (t := ⟨[o], signers⟩) (by simpa [Submission.Over] using inside)).2
  rwa [after] at grown

/-- A transaction of one operation that is executed does what the operation does. -/
theorem submit_one {l l' : Ledger} {σ : Registry} (h : Backed keys l.accounts σ l.slot) {o : Operation}
    (inside : o.Over keys) {i : Instruction} (made : o.instruction = .ok i) {signers : List Address}
    {e : Execution} (executed : l.submit [i] signers = .ok (l', e)) :
    ∃ x τ log, x.slot = l'.slot ∧ o.step x σ = some (τ, log) ∧ Backed keys l'.accounts τ l'.slot ∧
      e.logs = (LogEntry.invoke i.program 1 :: log ++ [LogEntry.success i.program]).map LogEntry.text := by
  obtain ⟨slot, effect, transactions, hslot, run, _, rfl, rfl⟩ := submit_eq_ok.1 executed
  simp only [executeFrom, bind_eq_ok, mapError_eq_ok, pure_eq_ok, Except.ok.injEq] at run
  obtain ⟨first, does, _, rfl, rfl⟩ := run
  have larger : l.slot.toNat ≤ slot.toNat := by
    rw [Coordinator.next64_eq_ok hslot]
    omega
  have later : Backed keys l.accounts σ (Surroundings.slot ⟨slot, [i], signers⟩) := h.later larger
  obtain ⟨τ, stepped, backed⟩ := later.executed inside made does
  exact ⟨_, τ, first.log, rfl, stepped, backed, rfl⟩

/-- A transaction without a slot crashes the ledger. -/
theorem answer_without_slot {l : Ledger} {is : List Instruction} {signers : List Address}
    (full : ¬ l.slot.toNat + 1 < UInt64.size) : l.answer is signers = .error .arithmetic := by
  have clock : Coordinator.next64 l.slot = .error (.crashed .arithmetic) := if_neg full
  simp only [answer, submit, clock]
  rfl

/-- A transaction of one instruction fails like the instruction. -/
theorem submit_of_error {l : Ledger} {i : Instruction} {signers : List Address} {f : Fault}
    (slot : l.slot.toNat + 1 < UInt64.size)
    (ran : Coordinator.execute ⟨l.slot + 1, [i], signers⟩ i l.accounts = .error f) :
    l.submit [i] signers = .error ⟨0, f⟩ := by
  have clock : Coordinator.next64 l.slot = .ok (l.slot + 1) := if_pos slot
  simp only [submit, executeFrom, clock, Except.mapError, ok_bind, ran]
  rfl

/-- A signed command whose conditions hold is carried out, if the ledger can count one more transaction. -/
theorem accepts_one {l : Ledger} {σ : Registry} (h : Backed keys l.accounts σ l.slot) {P : Address}
    {c : Command} (inside : (Operation.command P c).Over keys) {i : Instruction}
    (made : c.instruction P = .ok i) {signers : List Address} (signed : c.signer ∈ signers)
    (does : ∀ x : Scene, ∃ r, c.Does x σ P r)
    (slot : l.slot.toNat + 1 < UInt64.size) (transactions : l.transactions.toNat + 1 < UInt64.size) :
    ∃ l' e, l.submit [i] signers = .ok (l', e) := by
  let x : Surroundings := ⟨l.slot + 1, [i], signers⟩
  have accepted : ∃ r, (Operation.command P c).step x.scene σ = some r := by
    rw [Operation.step]
    split
    · exact ⟨_, rfl⟩
    · obtain ⟨r, does⟩ := does x.scene
      exact ⟨r, (if_pos signed).trans (does.effect h.legible)⟩
  obtain ⟨effect, ran⟩ := (Operation.execute_agrees x h.fits inside made).accepts_iff.2 accepted
  have run : executeFrom x 0 l.accounts [i] =
      .ok ⟨effect.accounts, .invoke i.program 1 :: effect.log ++ [.success i.program]⟩ := by
    simp only [executeFrom, bind_eq_ok, mapError_eq_ok, pure_eq_ok]
    exact ⟨effect, ran, _, rfl, rfl⟩
  exact ⟨_, _, submit_eq_ok.2 ⟨_, _, _, if_pos slot, run, if_pos transactions, rfl, rfl⟩⟩

end Ledger

end

end Randomness
