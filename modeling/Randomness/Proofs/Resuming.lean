import Randomness.Proofs.Calm
import Randomness.Proofs.Consent
import Randomness.Proofs.Solo

/-!
A call of `finalize` that has the ledger to itself, with a view that may be old: it does what is left to do,
wherever an earlier call has stopped.
-/

namespace Randomness

section

variable [Crypto] {keys : Set Address} {l : Ledger} {σ : Registry}

namespace Ledger

theorem perform_reread_absent {c : Client} {v : RequestView} (absent : l.get? v.address = none)
    {k : RequestAccount → ClientM α} : l.perform (c.reread v >>= k) =
      ⟨l, [], .ok (.error (.notFound "randomness request" v.address))⟩ := by
  rw [Client.reread, bind_assoc, perform_account, absent]
  rfl

theorem perform_reread_stored {c : Client} {v : RequestView} (legacy : c.generation = .legacy)
    {q : LegacyRequest} (stored : l.get? v.address = some (Kind.legacyRequest.encode q))
    {k : RequestAccount → ClientM α} : l.perform (c.reread v >>= k) = l.perform (k (.legacy q)) := by
  have read : RequestAccount.decode .legacy (Kind.legacyRequest.encode q) = .ok (.legacy q) := by
    rw [RequestAccount.decode, Kind.decode_encode .legacyRequest q trivial]
    rfl
  rw [Client.reread, bind_assoc, perform_account, stored, legacy]
  simp only [perform_decoded, read]

/-- What is observed is read from the handle's account. -/
theorem observed {h : RequestHandle} {v : RequestView}
    (found : (l.perform (Client.observe h)).outcome = .ok (.ok (.found v))) :
    v.address = h.address ∧ ∃ data, l.get? h.address = some data ∧
      RequestAccount.decode h.generation data = .ok v.account := by
  rw [Client.observe, perform_account] at found
  cases stored : l.get? h.address with
  | none =>
    rw [stored] at found
    cases found
  | some data =>
    simp only [stored, perform_decoded] at found
    cases read : RequestAccount.decode h.generation data with
    | error e =>
      rw [read] at found
      cases found
    | ok r =>
      rw [read] at found
      cases found
      exact ⟨rfl, data, rfl, read⟩

theorem perform_observe_absent {h : RequestHandle} (absent : l.get? h.address = none) (seen : h.seen = true) :
    l.perform (Client.observe h) = ⟨l, [], .ok (.ok (.notFound .closed))⟩ := by
  rw [Client.observe, perform_account, absent]
  simp only [seen, if_true]
  rfl

end Ledger

namespace Finalization

variable {f : Finalization} {v : RequestView}

/-- A call that ends with the view's answer: this many transactions have removed the request, and nothing else. -/
structure Finishes (f : Finalization) (v : RequestView) (n : Nat) (l : Ledger)
    (s : Solo (Except ClientError (Block 32))) : Prop where
  returned : s.outcome = .ok (.ok v.account.randomness)
  sent : s.exchanges.length = n
  executed : ∀ x ∈ s.exchanges, x.Executed
  slot : s.ledger.slot.toNat = l.slot.toNat + n
  transactions : s.ledger.transactions.toNat = l.transactions.toNat + n
  gone : s.ledger.get? f.handle.address = none
  others : ∀ a, a ≠ f.handle.address → s.ledger.get? a = l.get? a
  /-- Nobody can do it again with the view. -/
  again : ∀ requester, s.ledger.perform (f.client.finalize requester v) =
    ⟨s.ledger, [], .ok (.error (.notFound "randomness request" f.handle.address))⟩
  closed : ∀ h : RequestHandle, h.seen = true → h.address = f.handle.address →
    s.ledger.perform (Client.observe h) = ⟨s.ledger, [], .ok (.ok (.notFound .closed))⟩

/-- A call that needs this many slots, and crashes if there are not as many. -/
structure Ends (f : Finalization) (v : RequestView) (n : Nat) (l : Ledger)
    (s : Solo (Except ClientError (Block 32))) : Prop where
  finishes : l.slot.toNat + n < UInt64.size → f.Finishes v n l s
  crashes : UInt64.size ≤ l.slot.toNat + n → s.outcome = .error .arithmetic

/-- A call that is refused its first step, and has no effect; without a slot it crashes. -/
structure Refused (l : Ledger) (s : Solo (Except ClientError (Block 32))) : Prop where
  ledger : s.ledger = l
  sent : s.exchanges.length = 1
  unauthorized : l.slot.toNat + 1 < UInt64.size →
    s.outcome = .ok (.error (.ledger (.custom "instruction 0 failed: Unauthorized")))
  crashes : UInt64.size ≤ l.slot.toNat + 1 → s.outcome = .error .arithmetic

/-- A call on an answered request that is not there is told so. -/
theorem perform_absent (legacy : f.client.generation = .legacy) (answered : v.account.status ≠ .pending)
    (absent : l.get? v.address = none) (requester : Address) : l.perform (f.client.finalize requester v) =
      ⟨l, [], .ok (.error (.notFound "randomness request" v.address))⟩ := by
  have call := finalize_eq (f := { f with requester }) v
  change f.client.finalize requester v = _ at call
  rw [call, if_neg (not_not_intro legacy), if_neg answered]
  exact Ledger.perform_reread_absent absent

/-- After one more transaction first. -/
theorem Finishes.cons {x : Exchange Unit} {n : Nat} {s : Solo (Except ClientError (Block 32))}
    (h : f.Finishes v n x.after s) (executed : x.Executed)
    (slot : x.after.slot.toNat = x.before.slot.toNat + 1)
    (transactions : x.after.transactions.toNat = x.before.transactions.toNat + 1)
    (others : ∀ a, a ≠ f.handle.address → x.after.get? a = x.before.get? a) :
    f.Finishes v (n + 1) x.before { s with exchanges := x :: s.exchanges } where
  returned := h.returned
  sent := congrArg (· + 1) h.sent
  executed := List.forall_mem_cons.2 ⟨executed, h.executed⟩
  slot := by
    have := h.slot
    simp only
    omega
  transactions := by
    have := h.transactions
    simp only
    omega
  gone := h.gone
  others a ha := (h.others a ha).trans (others a ha)
  again := h.again
  closed := h.closed

/-- Both steps can be built for a request that has an address. -/
theorem steps_made {id : UInt64} {b : UInt8}
    (place : (Site.legacyRequest f.program id).address = .ok (f.handle.address, b)) :
    (∃ i, (Command.consumeRandomness f.requester id).instruction f.program = .ok i) ∧
      ∃ i, (Command.closeRequest f.requester id).instruction f.program = .ok i := by
  simp only [Command.instruction, Legacy.consumeRandomness, Legacy.closeRequest, Legacy.request, bind_eq_ok,
    Instruction.addressOf_eq_ok, pure_eq_ok]
  exact ⟨⟨_, _, ⟨_, place⟩, rfl⟩, _, _, ⟨_, place⟩, rfl⟩

section

variable {id : UInt64} {b : UInt8} {q : LegacyRequest} (backed : Backed keys l.accounts σ l.slot)
  (hP : f.program ∈ keys) (place : (Site.legacyRequest f.program id).address = .ok (f.handle.address, b))
  (found : σ (.legacyRequest f.program id) = some q)

include backed hP place found

theorem stored_of_found : l.get? f.handle.address = some (Kind.legacyRequest.encode q) := by
  rw [Ledger.get?, backed.fits.get?_eq (t := .legacyRequest f.program id) (by simpa using hP) place, found]
  rfl

variable (paced : l.Paced) (proper : f.program ≠ Instruction.signatureProgram)
  (legacy : f.client.generation = .legacy) (here : v.address = f.handle.address)
  (answered : v.account.status ≠ .pending) (same : q.randomness = v.account.randomness)

include paced proper legacy here answered same

/-- The last step removes a consumed request, whoever takes it. -/
theorem close_ends (consumed : q.status = .consumed) :
    f.Ends v 1 l (l.perform (f.client.reread v >>= f.close id)) := by
  have stored := stored_of_found backed hP place found
  have consumed' : ¬ (RequestAccount.legacy q).status ≠ .consumed := not_not_intro consumed
  obtain ⟨_, i, made⟩ := steps_made place
  rw [Ledger.perform_reread_stored legacy (here ▸ stored), close, if_neg consumed']
  change f.Ends v 1 l (l.perform (Client.built ((Command.closeRequest f.requester id).instruction f.program) >>=
    fun i => Client.submitAll [i] [f.requester] >>= fun _ => pure q.randomness))
  refine ⟨fun slot => ?_, fun full => (Ledger.perform_without_slot made _ (Nat.not_lt.2 full)).2.2⟩
  have signed : (Command.closeRequest f.requester id).signer ∈ [f.requester] := List.mem_singleton_self _
  obtain ⟨x, τ, e, carries, rfl, performed⟩ := Ledger.perform_command made (fun _ => pure q.randomness) backed
    paced proper ⟨hP, by simp [Command.consumer?]⟩ signed (fun x => ⟨_, .closeRequest found consumed⟩) slot
  obtain ⟨y, log, does⟩ := carries.does
  obtain ⟨is, signers, _, question, _⟩ := carries.executed
  have closes := does.closes hP place ⟨is, signers, question⟩ backed carries.backed
  -- Behind the transaction there is only the answer to return, and no request any more.
  have base : f.Finishes v 0 x.after (x.after.perform (pure q.randomness)) := {
    returned := by rw [Ledger.perform_pure, same]
    sent := rfl
    executed := List.forall_mem_nil _
    slot := rfl
    transactions := rfl
    gone := closes.gone
    others := fun _ _ => rfl
    again := by
      rw [← here]
      exact perform_absent legacy answered (here ▸ closes.gone)
    closed := fun h seen there => Ledger.perform_observe_absent (there ▸ closes.gone) seen }
  rw [performed]
  exact base.cons carries.executed carries.slot carries.transactions closes.others

/-- A call on a consumed request is left with the last step. -/
theorem consumed_ends (named : v.account.requestId = id) (consumed : q.status = .consumed) :
    f.Ends v 1 l (l.perform (f.client.finalize f.requester v)) := by
  have stored := stored_of_found backed hP place found
  rw [finalize_eq, if_neg (not_not_intro legacy), if_neg answered,
    Ledger.perform_reread_stored legacy (here ▸ stored), named]
  simp only [RequestAccount.status, consumed]
  exact close_ends backed hP place found paced proper legacy here answered same consumed

omit paced proper same in
/-- A call on a fulfilled request has both steps to take. -/
theorem perform_fulfilled (named : v.account.requestId = id) (fulfilled : q.status = .fulfilled) :
    l.perform (f.client.finalize f.requester v) =
      l.perform (Client.built ((Command.consumeRandomness f.requester id).instruction f.program) >>= fun i =>
        Client.submitAll [i] [f.requester] >>= fun _ => f.client.reread v >>= f.close id) := by
  have stored := stored_of_found backed hP place found
  rw [finalize_eq, if_neg (not_not_intro legacy), if_neg answered,
    Ledger.perform_reread_stored legacy (here ▸ stored), named]
  simp only [RequestAccount.status, fulfilled]
  rfl

/-- Both steps together remove a fulfilled request, if its requester takes them. -/
theorem fulfilled_ends (named : v.account.requestId = id) (fulfilled : q.status = .fulfilled)
    (own : q.requester = f.requester) : f.Ends v 2 l (l.perform (f.client.finalize f.requester v)) := by
  obtain ⟨⟨i, made⟩, _⟩ := steps_made place
  rw [perform_fulfilled backed hP place found legacy here answered named fulfilled]
  by_cases slot : l.slot.toNat + 1 < UInt64.size
  · have signed : (Command.consumeRandomness f.requester id).signer ∈ [f.requester] := List.mem_singleton_self _
    obtain ⟨x, τ, e, carries, rfl, performed⟩ := Ledger.perform_command made
      (fun _ => f.client.reread v >>= f.close id) backed paced proper ⟨hP, by simp [Command.consumer?]⟩ signed
      (fun x => ⟨_, .consumeRandomness found own fulfilled⟩) slot
    obtain ⟨y, log, does⟩ := carries.does
    obtain ⟨is, signers, _, question, _⟩ := carries.executed
    have consumes := does.consumes hP place ⟨is, signers, question⟩ backed carries.backed
    -- The first step leaves a consumed request, on which the rest of the call is the last step.
    have left : τ (.legacyRequest f.program id) = some { q with status := .consumed } := by
      cases does with
      | consumeRandomness found' own' fulfilled' =>
        rw [found] at found'
        cases found'
        exact Registry.put_self ..
    have rest := close_ends carries.backed hP place left carries.paced proper legacy here answered same rfl
    have next := carries.slot
    rw [performed]
    refine ⟨fun slots => ?_, fun full => rest.crashes (by omega)⟩
    have finishes := rest.finishes (by omega)
    exact finishes.cons carries.executed carries.slot carries.transactions consumes.others
  · refine ⟨fun slots => absurd slots (by omega), fun _ => ?_⟩
    exact (Ledger.perform_without_slot made _ slot).2.2

omit paced same in
/-- The first step is refused to anyone but the requester. -/
theorem fulfilled_refused (named : v.account.requestId = id) (fulfilled : q.status = .fulfilled)
    (other : q.requester ≠ f.requester) : Refused l (l.perform (f.client.finalize f.requester v)) := by
  obtain ⟨⟨i, made⟩, _⟩ := steps_made place
  rw [perform_fulfilled backed hP place found legacy here answered named fulfilled]
  by_cases slot : l.slot.toNat + 1 < UInt64.size
  · obtain ⟨same, sent, outcome⟩ := Ledger.perform_refused made _ slot
      (Command.consumeRandomness_unauthorized backed.fits backed.legible hP proper made
        (List.mem_singleton_self _) found other)
    exact ⟨same, sent, fun _ => outcome, fun full => absurd slot (Nat.not_lt.2 full)⟩
  · obtain ⟨same, sent, outcome⟩ := Ledger.perform_without_slot made
      (fun _ => f.client.reread v >>= f.close id) slot
    exact ⟨same, sent, fun room => absurd room slot, fun _ => outcome⟩

end

/-- A call does what is left to do. It is made with a view of a legacy request that the client's program has
observed, however long ago, on any ledger that transactions have led to since. Without an answer in the view, or
without the request, it fails and asks for no transaction. A fulfilled request takes two steps, the first of them
only by who made it; a consumed one takes the last. -/
theorem resumes (distinct : DistinctAddresses keys) (f : Finalization) (hP : f.program ∈ keys) {id : UInt64}
    {b : UInt8} (place : (Site.legacyRequest f.program id).address = .ok (f.handle.address, b))
    (ts us : List Submission) (past : ∀ t ∈ ts ++ us, t.Over keys) {v : RequestView}
    (observed : ((Ledger.history ts).1.perform (Client.observe f.handle)).outcome = .ok (.ok (.found v))) :
    let l := (Ledger.history (ts ++ us)).1
    let call := f.client.finalize f.requester v
    (f.client.generation ≠ .legacy → l.converse call.run =
      ⟨l, [], .ok (.error (.lifecycle (.unsupportedGeneration "finalize" .legacy)))⟩) ∧
    (f.client.generation = .legacy → v.account.status = .pending → l.converse call.run =
      ⟨l, [], .ok (.error (.lifecycle (.wrongState id .fulfilled .pending)))⟩) ∧
    (f.client.generation = .legacy → v.account.status ≠ .pending →
      (l.get? f.handle.address = none → l.perform call =
        ⟨l, [], .ok (.error (.notFound "randomness request" f.handle.address))⟩) ∧
      ∀ data, l.get? f.handle.address = some data → ∃ q : LegacyRequest,
        data = Kind.legacyRequest.encode q ∧ q.requestId = id ∧ q.randomness = v.account.randomness ∧
        (q.status = .fulfilled ∧ (q.requester = f.requester → f.Ends v 2 l (l.perform call)) ∧
            (q.requester ≠ f.requester → Refused l (l.perform call)) ∨
          q.status = .consumed ∧ f.Ends v 1 l (l.perform call))) := by
  intro l call
  obtain ⟨σ, τ, backed, backed', stays⟩ := Ledger.answer_stays distinct hP id ts us past
  obtain ⟨here, old, stored, read⟩ := Ledger.observed observed
  obtain ⟨proper, q₀, found₀, viewed, _, named⟩ := backed.request_read hP place stored read
  have named' : v.account.requestId = id := by rw [viewed]; exact named
  have form := finalize_eq (f := f) v
  refine ⟨fun other => ?_, fun legacy pending => ?_, fun legacy answered => ⟨fun absent => ?_, ?_⟩⟩
  · simp only [call, form, if_pos other]
    rfl
  · simp only [call, form, if_neg (not_not_intro legacy), if_pos pending, named']
    rfl
  · rw [← here] at absent ⊢
    exact perform_absent legacy answered absent f.requester
  · intro data stored'
    have within : (Site.legacyRequest f.program id).Over keys := by simpa using hP
    rw [Ledger.get?, backed'.fits.get?_eq within place] at stored'
    obtain ⟨q, found, rfl⟩ := Option.map_eq_some_iff.1 stored'
    rw [viewed] at answered
    -- The request was answered when it was viewed, so it is not pending now, and has the same answer.
    obtain ⟨left, same⟩ := stays q₀ q found₀ answered found
    have paced := Ledger.Paced.history (ts ++ us)
    have same' : q.randomness = v.account.randomness := by rw [viewed]; exact same
    refine ⟨q, rfl, (backed'.fits.owned _ q found).1, same', ?_⟩
    cases status : q.status with
    | pending => exact absurd status left
    | fulfilled =>
      exact .inl ⟨rfl, fulfilled_ends backed' hP place found paced proper legacy here (viewed ▸ answered) same'
          named' status,
        fulfilled_refused backed' hP place found proper legacy here (viewed ▸ answered) named' status⟩
    | consumed =>
      exact .inr ⟨rfl, consumed_ends backed' hP place found paced proper legacy here (viewed ▸ answered) same'
        named' status⟩

end Finalization

end

namespace Recorded

/-- What has been found, if an observation has found anything. -/
def found? {α : Type} (s : Solo (Except α Observation)) : Option RequestView :=
  match s.outcome with
  | .ok (.ok (.found v)) => some v
  | _ => none

theorem found_of_eq {α : Type} {s : Solo (Except α Observation)} {v : RequestView} (h : found? s = some v) :
    s.outcome = .ok (.ok (.found v)) := by
  unfold found? at h
  split at h
  · next outcome =>
    cases h
    exact outcome
  · cases h

/-- There is a request, and it has a property. -/
def stores (l : Ledger) (p : LegacyRequest → Prop) [DecidablePred p] : Bool :=
  (l.get? (finalizer (.last 1)).handle.address).any fun data =>
    (Kind.legacyRequest.decode data).toOption.any fun q => decide (p q)

theorem of_stores {l : Ledger} {p : LegacyRequest → Prop} [DecidablePred p] (h : stores l p = true) :
    ∃ data, l.get? addresses[4].2 = some data ∧ ∀ q, data = Kind.legacyRequest.encode q → p q := by
  obtain ⟨data, found, read⟩ := (Option.any_eq_true _ _).1 h
  refine ⟨data, found, ?_⟩
  rintro q rfl
  rw [Kind.decode_encode .legacyRequest q trivial] at read
  exact of_decide_eq_true read

/-- A view of the fulfilled request is good for both steps, and for the last one after the first. -/
theorem resumed :
    let _ := crypto
    let f := finalizer 0
    let now (us : List Submission) := (Ledger.history ([pledged, fulfilling] ++ us)).1
    ∃ v, ((Ledger.history [pledged, fulfilling]).1.perform (Client.observe f.handle)).outcome =
        .ok (.ok (.found v)) ∧ v.account.randomness = answer ∧
      f.Finishes v 2 (now []) ((now []).perform (f.client.finalize f.requester v)) ∧
      f.Finishes v 1 (now [consuming]) ((now [consuming]).perform (f.client.finalize f.requester v)) := by
  intro _ f now
  have place : @Site.address crypto (.legacyRequest program 0) = .ok (addresses[4].2, 255) :=
    address_of addresses[4] (List.getElem_mem _)
  have run : ((found? ((Ledger.history [pledged, fulfilling]).1.perform (Client.observe f.handle))).any
        fun v => decide (v.account.status = .fulfilled ∧ v.account.randomness = answer)) = true ∧
      stores (now []) (fun q => q.status = .fulfilled ∧ q.requester = f.requester) = true ∧
      stores (now [consuming]) (fun q => q.status = .consumed) = true ∧
      (@Ledger.history crypto ([pledged, fulfilling] ++ [])).1.slot.toNat + 2 < UInt64.size ∧
      (@Ledger.history crypto ([pledged, fulfilling] ++ [consuming])).1.slot.toNat + 1 < UInt64.size := by
    decide +kernel
  obtain ⟨looked, stored, stored', slots, slots'⟩ := run
  obtain ⟨v, seen, facts⟩ := (Option.any_eq_true _ _).1 looked
  obtain ⟨status, same⟩ := of_decide_eq_true facts
  have answered : v.account.status ≠ .pending := by
    rw [status]
    exact nofun
  have calls (us : List Submission) (later : ∀ t ∈ [pledged, fulfilling] ++ us, t.Over Set.univ) :=
    ((Finalization.resumes distinct f (Set.mem_univ program) place [pledged, fulfilling] us later
      (found_of_eq seen)).2.2 rfl answered).2
  refine ⟨v, found_of_eq seen, same, ?_, ?_⟩
  · have past : ∀ t ∈ [pledged, fulfilling] ++ [], t.Over Set.univ := by
      simp [Submission.Over, pledged, fulfilling, Operation.Over]
    obtain ⟨data, held, facts⟩ := of_stores stored
    obtain ⟨q, encoded, _, _, ⟨_, own, _⟩ | ⟨consumed, _⟩⟩ := calls [] past data held
    · exact (own (facts q encoded).2).finishes slots
    · rw [(facts q encoded).1] at consumed
      cases consumed
  · have past : ∀ t ∈ [pledged, fulfilling] ++ [consuming], t.Over Set.univ := by
      simp [Submission.Over, pledged, fulfilling, consuming, Operation.Over]
    obtain ⟨data, held, facts⟩ := of_stores stored'
    obtain ⟨q, encoded, _, _, ⟨fulfilled, _⟩ | ⟨_, ends⟩⟩ := calls [consuming] past data held
    · rw [facts q encoded] at fulfilled
      cases fulfilled
    · exact ends.finishes slots'

end Recorded

end Randomness
