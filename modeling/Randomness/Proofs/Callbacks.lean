import Mathlib.Algebra.Ring.Nat
import Randomness.Proofs.Finalizing
import Randomness.Proofs.Handle

/-!
Callback accounts from the call to the callback: a request stores the list that it was submitted with, and says
it again as long as it is there.
-/

namespace Randomness

/-- What a request can say of an account: it does not sign. -/
def AccountMeta.unsigned (m : AccountMeta) : AccountMeta := ⟨m.key, false, m.isWritable⟩

/-- A request whose fields hold a list of callback accounts. -/
structure WordsRequest.Stores (r : WordsRequest) (metas : List AccountMeta) : Prop where
  few : metas.length ≤ maxCallbackAccounts
  count : r.numCallbackAccounts = UInt8.ofNat metas.length
  slots : r.callbackAccounts = Coordinator.callbackSlots metas
  bitmap : r.callbackWritableBitmap = Coordinator.writableBitmap metas

namespace WordsRequest.Stores

variable {r : WordsRequest} {metas : List AccountMeta}

theorem numCallbackAccounts (h : r.Stores metas) : r.numCallbackAccounts.toNat = metas.length := by
  rw [h.count]
  exact UInt8.toNat_ofNat_of_lt (h.few.trans_lt (by decide))

theorem slot (h : r.Stores metas) {j : Nat} (hj : j < 4) :
    r.callbackAccounts[j] = (metas[j]?.map AccountMeta.key).getD Address.zero := by
  simp only [h.slots, Coordinator.callbackSlots, Vector.getElem_ofFn]
  cases metas[j]? <;> rfl

theorem bit (h : r.Stores metas) (j : Nat) :
    r.callbackWritableBitmap.toNat.testBit j = (metas[j]?.map AccountMeta.isWritable).getD false := by
  rw [h.bitmap, Coordinator.testBit_writableBitmap h.few]

/-- The list is said again, without the signatures. -/
theorem callbackMetas (h : r.Stores metas) : r.callbackMetas = metas.map AccountMeta.unsigned := by
  have few : metas.length ≤ 4 := h.few
  have length : r.callbackMetas.length = metas.length := by
    simp only [WordsRequest.callbackMetas, List.length_map, List.length_zipIdx, List.length_take,
      Vector.length_toList, h.numCallbackAccounts]
    omega
  refine List.ext_getElem (by simpa using length) fun j hj hj' => ?_
  rw [length] at hj
  have stored : metas[j]? = some metas[j] := List.getElem?_eq_getElem hj
  have key := h.slot (j := j) (by omega)
  have flag := h.bit j
  rw [stored] at key flag
  simp only [WordsRequest.callbackMetas, List.getElem_map, List.getElem_zipIdx, List.getElem_take,
    Vector.getElem_toList, Nat.zero_add, AccountMeta.unsigned, key, flag, Option.map_some, Option.getD_some]

theorem unused (h : r.Stores metas) {j : Nat} (past : metas.length ≤ j) :
    (∀ hj : j < 4, r.callbackAccounts[j] = Address.zero) ∧
      r.callbackWritableBitmap.toNat.testBit j = false := by
  have none : metas[j]? = none := List.getElem?_eq_none past
  constructor
  · intro hj
    rw [h.slot hj, none]
    rfl
  · rw [h.bit j, none]
    rfl

end WordsRequest.Stores

section

variable [Crypto] {keys : Set Address} {ι : Type}

/-- The request of a call for words, as the coordinator files it. -/
structure Call.Files (c : Call) (b : Binding) (q : WordsRequest) : Prop where
  requester : q.requester = c.requester
  consumer : q.consumerProgram = b.consumerProgram
  callback : q.Stores b.callbackAccounts

/-- Requests that were there are as they were, or gone; and no request takes their ids. -/
def Registry.Keeps (keys : Set Address) (σ τ : Registry) : Prop :=
  ∀ P ∈ keys, ∀ id q, σ (.wordsRequest P id) = some q →
    id.toNat < τ.requestCount .subscription P ∧ ∀ r, τ (.wordsRequest P id) = some r → r = q

namespace Registry.Keeps

variable {σ τ : Registry}

theorem refl {slot : UInt64} (sound : τ.Sound slot) (same : ∀ t : Site, t.Over keys → σ t = τ t) :
    Keeps keys σ τ := by
  intro P hP id q found
  rw [same _ (by simpa using hP)] at found
  refine ⟨(sound .subscription P id (.subscription q) ?_).2, fun r stored => ?_⟩
  · rw [Registry.request?, found]
    rfl
  · exact Option.some.inj (stored.symm.trans found)

theorem step (h : Keeps keys σ τ) {x : Scene} {o : Operation} {r : Registry.Result}
    (stepped : o.step x τ = some r) : Keeps keys σ r.1 := by
  intro P hP id q found
  obtain ⟨below, same⟩ := h P hP id q found
  have counts := Operation.counts stepped .subscription P
  refine ⟨by omega, fun p stored => ?_⟩
  have turn := Operation.turn stepped .subscription P id
  have after : r.1.request? .subscription P id = some (.subscription p) := by
    rw [Registry.request?, stored]
    rfl
  cases earlier : τ (.wordsRequest P id) with
  | some p' =>
    have before : τ.request? .subscription P id = some (.subscription p') := by
      rw [Registry.request?, earlier]
      rfl
    rw [before, after] at turn
    have kept : p = p' := turn.becomes
    exact kept.trans (same p' earlier)
  | none =>
    -- A new request has the counter as its id, and the id of a former one is below.
    have before : τ.request? .subscription P id = none := Registry.request?_of_vacant earlier
    rw [before, after] at turn
    cases turn with
    | requested ask fresh =>
      have counter := Operation.requested_eq stepped ask
      omega

end Registry.Keeps

namespace Ledger

variable {l : Ledger} {σ : Registry}

theorem keeps_after (h : Backed keys l.accounts σ l.slot) {t : Submission} (inside : t.Over keys) :
    ∃ τ, Backed keys (l.after t).1.accounts τ (l.after t).1.slot ∧
      ∀ υ, Registry.Keeps keys υ σ → Registry.Keeps keys υ τ := by
  obtain ⟨τ, _, after, keeps⟩ := after_induction (H := [])
    (C := fun s τ slot _ => Backed keys s τ slot ∧ ∀ υ, Registry.Keeps keys υ σ → Registry.Keeps keys υ τ)
    (fun _ _ _ _ _ _ _ _ h _ fits _ stepped =>
      ⟨h.1.step fits stepped, fun υ kept => (h.2 υ kept).step stepped⟩)
    (fun _ _ _ _ _ le h => ⟨h.1.later le, h.2⟩) inside h.fits ⟨h, fun _ kept => kept⟩
  exact ⟨τ, after, keeps⟩

theorem keeps_told (h : Backed keys l.accounts σ l.slot) {q : LedgerRequest} (made : q.Made keys) :
    ∃ τ, Backed keys (l.told q).1.accounts τ (l.told q).1.slot ∧
      ∀ υ, Registry.Keeps keys υ σ → Registry.Keeps keys υ τ := by
  cases q with
  | account a => exact ⟨σ, h, fun _ kept => kept⟩
  | submit is signers =>
    obtain ⟨os, inside, made⟩ := made
    cases submitted : l.submit is signers with
    | error f =>
      rw [(told_submit_of_error submitted).1]
      exact ⟨σ, h, fun _ kept => kept⟩
    | ok r =>
      obtain ⟨l', e⟩ := r
      rw [told_submit_of_ok submitted]
      obtain ⟨τ, _, after, keeps⟩ := submit_induction (H := []) (D := [])
        (C := fun s τ slot _ _ =>
          Backed keys s τ slot ∧ ∀ υ, Registry.Keeps keys υ σ → Registry.Keeps keys υ τ)
        (fun _ _ _ _ _ _ _ _ _ _ h _ fits _ _ stepped =>
          ⟨h.1.step fits stepped, fun υ kept => (h.2 υ kept).step stepped⟩)
        (fun _ _ _ _ _ _ le h => ⟨h.1.later le, h.2⟩) inside made submitted h.fits ⟨h, fun _ kept => kept⟩
      exact ⟨τ, after, keeps⟩

end Ledger

namespace Call

variable {c : Call} {b : Binding}

/-- The command of a call for words files its request. -/
theorem files_of_does {x : Scene} {σ τ : Registry} {log : List LogEntry} {treasury : Address} {seed : Block 32}
    {n id : UInt64} {q : WordsRequest} (mode : c.client.mode = .subscription b)
    (does : (c.command treasury seed n).Does x σ c.program (τ, log))
    (vacant : σ (.wordsRequest c.program id) = none) (filed : τ (.wordsRequest c.program id) = some q) :
    c.Files b q := by
  rw [command, mode] at does
  by_cases named : id = n
  · subst named
    cases does with
    | requestRandomWords stored found registered allowed price paid next few unused used counted =>
      rw [Registry.put_of_ne _ _ (by simp), Registry.put_of_ne _ _ (by simp), Registry.put_self] at filed
      cases filed
      exact ⟨rfl, rfl, few, rfl, rfl, rfl⟩
  · have same := does.frame (t := .wordsRequest c.program id) (by simp [Command.writes, named])
    rw [show τ (.wordsRequest c.program id) = _ from same, vacant] at filed
    cases filed

/-- What a call for words sends has few callback accounts, and files the request. -/
structure Submits (c : Call) (b : Binding) (x : Exchange ι) : Prop where
  few : b.callbackAccounts.length ≤ maxCallbackAccounts
  filed : ∀ id q, x.before.accounts.records (.wordsRequest c.program id) = none →
    x.after.accounts.records (.wordsRequest c.program id) = some q → c.Files b q

theorem submits_of_made {l : Ledger} {σ : Registry} {treasury : Address} {seed : Block 32} {n : UInt64}
    {i : Instruction} {k : ι} (inside : c.Over keys) (mode : c.client.mode = .subscription b)
    (backed : Backed keys l.accounts σ l.slot)
    (made : (c.command treasury seed n).instruction c.program = .ok i) :
    c.Submits b (⟨k, l, (l.told (.submit [i] [c.requester])).1, .submit [i] [c.requester],
      (l.told (.submit [i] [c.requester])).2⟩ : Exchange ι) := by
  constructor
  · rw [command, mode] at made
    simp only [Command.instruction, Subscriptions.requestRandomWords, bind_eq_ok,
      Instruction.outOfRange_eq_ok] at made
    obtain ⟨_, _, _, few, _⟩ := made
    exact Nat.not_lt.1 few
  · intro id q vacant filed
    have reach : Site.Over keys (.wordsRequest c.program id) := by simpa using inside.1
    rw [backed.records_eq reach] at vacant
    rcases Ledger.told_one backed inside.command made [c.requester] with
      ⟨same, _⟩ | ⟨_, _, τ, log, _, stepped, backed'⟩
    · rw [same, backed.records_eq reach, vacant] at filed
      cases filed
    · rw [backed'.records_eq reach] at filed
      rcases Operation.step_cases stepped with ⟨same, _⟩ | ⟨P, d, same, _, _, does⟩
      · cases same
        rw [vacant] at filed
        cases filed
      · cases same
        exact files_of_does mode does vacant filed

/-- A transaction that a call is about to send. -/
theorem Standing.sending {k : ι} {E : List (Exchange ι)} {is : List Instruction} {signers : List Address}
    {next : Except LedgerError Execution → LedgerDialogue (Except ClientError RequestHandle)}
    (stands : Standing c k E (.ok (.ask (.submit is signers) next))) :
    ∃ treasury seed n i, is = [i] ∧ signers = [c.requester] ∧
      (c.command treasury seed n).instruction c.program = .ok i := by
  cases stands with
  | unread opens => cases opens
  | reading proper first others asks =>
    cases asks with
    | send given made => exact ⟨_, _, _, _, rfl, rfl, made⟩
  | sent first others sends ended =>
    rename_i a
    cases a <;> cases ended

end Call

/-- Exchanges up to a ledger, whose requests are there as they were, or gone. -/
def Exchange.Kept (keys : Set Address) (X : List (Exchange ι)) (l : Ledger) : Prop :=
  ∃ σ, Backed keys l.accounts σ l.slot ∧ ∀ x ∈ X, Registry.Keeps keys x.after.accounts.records σ

/-- Whatever calls and other transactions do, each call for words submits its callback accounts, and what it
has filed is kept. -/
theorem Arena.submits [DecidableEq ι] (distinct : DistinctAddresses keys) {l : Ledger} {σ : Registry}
    (backed : Backed keys l.accounts σ l.slot) {calls : ι → Call} (within : ∀ k, (calls k).Over keys)
    {moves : List (Move ι)} (inside : ∀ m ∈ moves, m.Over keys) :
    let A := (Arena.start l fun k => (calls k).start).run moves
    Exchange.Kept keys A.exchanges A.ledger ∧ ∀ k, (calls k).Standing k (A.asked k) (A.talks k) ∧
      ∀ b, (calls k).client.mode = .subscription b → ∀ x ∈ A.asked k, ∀ is signers,
        x.question = .submit is signers → (calls k).Submits b x := by
  refine Arena.run_induction (n := fun _ => 0) (G := Exchange.Kept keys)
    (I := fun k _ E d => (calls k).Standing k E d ∧ ∀ b, (calls k).client.mode = .subscription b →
      ∀ x ∈ E, ∀ is signers, x.question = .submit is signers → (calls k).Submits b x)
    ?_ ?_ ?_ ?_ ⟨σ, backed, by simp [Arena.start]⟩
    (fun k => ⟨.unread (Call.opens distinct (within k)), ?_⟩) inside
  · intro X l t ht held
    obtain ⟨σ, backed, kept⟩ := held
    obtain ⟨τ, after, keeps⟩ := Ledger.keeps_after backed ht
    exact ⟨τ, after, fun x hx => keeps _ (kept x hx)⟩
  · exact fun k n E d _ held => held
  · exact fun k n E ms next held => absurd held.1 Call.Standing.not_pause
  · intro k n X E l q next held held'
    obtain ⟨σ, backed, kept⟩ := held
    obtain ⟨stands, submits⟩ := held'
    obtain ⟨_, _, stands'⟩ := stands.told (within k) backed
    obtain ⟨τ, after, keeps⟩ := Ledger.keeps_told backed (stands.made (within k))
    refine ⟨⟨τ, after, forall_mem_snoc (fun x hx => keeps _ (kept x hx)) ?_⟩, stands', fun b mode => ?_⟩
    · exact .refl after.sound fun t ht => after.records_eq ht
    · refine forall_mem_snoc (submits b mode) ?_
      intro is signers asks
      cases asks
      obtain ⟨treasury, seed, n, i, rfl, rfl, made⟩ := stands.sending
      exact Call.submits_of_made (within k) mode backed made
  · intro b mode x hx
    simp [Arena.start, Arena.asked] at hx

/-- The instruction that fulfills a stored request, by its accounts. -/
theorem Subscriptions.fulfillRandomWords_accounts {P config request : Address} {r : WordsRequest}
    {b d : UInt8} (hconfig : Site.address ⟨P, .config .subscription⟩ = .ok (config, b))
    (hrequest : Site.address ⟨P, .request .subscription r.requestId⟩ = .ok (request, d))
    (authority : Address) (randomness : Block 32) :
    ∃ i, fulfillRandomWords P authority r randomness = .ok i ∧
      i.accounts = [.writableSigner authority, .readonly config, .writable request, .writable r.requester,
        .readonly r.consumerProgram, .readonly Instruction.instructionsAccount] ++ r.callbackMetas := by
  simp only [fulfillRandomWords, Subscriptions.config, Subscriptions.request, bind_eq_ok,
    Instruction.addressOf_eq_ok, pure_eq_ok]
  exact ⟨_, ⟨config, ⟨b, hconfig⟩, request, ⟨d, hrequest⟩, rfl⟩, rfl⟩

/-- What a call has created and still finds is what it has filed. -/
theorem Call.Creates.filed {c : Call} {b : Binding} {h : RequestHandle} {x : Exchange ι} {l : Ledger}
    {σ : Registry} (creates : c.Creates x.before x.after h) (submits : c.Submits b x)
    (mode : c.client.mode = .subscription b) (hP : c.program ∈ keys) (backed : Backed keys l.accounts σ l.slot)
    (kept : Registry.Keeps keys x.after.accounts.records σ) {data : Bytes}
    (found : l.get? h.address = some data) :
    ∃ r, Kind.wordsRequest.decode data = .ok r ∧ r.requestId = h.requestId ∧ c.Files b r ∧
      0 < σ.requestCount .subscription c.program := by
  have subscription : c.generation = .subscription := by rw [Call.generation, Client.generation, mode]; rfl
  obtain ⟨bump, place⟩ := creates.place
  obtain ⟨old, r, stored, read, named, _⟩ := creates.created
  rw [subscription] at place read
  have site : (Site.wordsRequest c.program h.requestId).address = .ok (h.address, bump) := place
  have vacant : x.before.accounts.records (.wordsRequest c.program h.requestId) = none := by
    rw [Accounts.records_eq site, show x.before.accounts.get? h.address = none from creates.vacant]
    rfl
  cases decoded : Kind.wordsRequest.decode old with
  | error e =>
    rw [RequestAccount.decode, decoded] at read
    cases read
  | ok q =>
    rw [RequestAccount.decode, decoded] at read
    cases read
    have created : x.after.accounts.records (.wordsRequest c.program h.requestId) = some q := by
      rw [Accounts.records_eq site, show x.after.accounts.get? h.address = some old from stored,
        Option.bind_some, toOption_eq_some]
      exact decoded
    obtain ⟨below, same⟩ := kept c.program hP h.requestId q created
    obtain ⟨p, there, again⟩ := backed.get?_eq_some (by simpa using hP) site found
    obtain rfl := same p there
    exact ⟨p, again, named, submits.filed h.requestId p vacant created, Nat.zero_lt_of_lt below⟩

/-- Callback accounts survive the whole path. Whatever transactions have led to the ledger, and however calls
and other transactions interleave: as long as the request of a returned handle is there, it says the submitted
list without its signatures, its other slots and bits are zero, and the instruction that fulfills it ends with
the list. A call with too many accounts sends nothing. -/
theorem Arena.callbacks_survive [DecidableEq ι] (distinct : DistinctAddresses keys) (ts : List Submission)
    (past : ∀ t ∈ ts, t.Over keys) (calls : ι → Call) (within : ∀ k, (calls k).Over keys)
    (moves : List (Move ι)) (inside : ∀ m ∈ moves, m.Over keys) (k : ι) (b : Binding)
    (mode : (calls k).client.mode = .subscription b) :
    let A := (Arena.start (Ledger.history ts).1 fun k => (calls k).start).run moves
    (∀ h data, A.Returned k (.ok h) → A.ledger.get? h.address = some data →
      ∃ r, Kind.wordsRequest.decode data = .ok r ∧
        r.callbackMetas = b.callbackAccounts.map AccountMeta.unsigned ∧
        (∀ j, b.callbackAccounts.length ≤ j → (∀ hj : j < 4, r.callbackAccounts[j] = Address.zero) ∧
          r.callbackWritableBitmap.toNat.testBit j = false) ∧
        ∀ authority randomness, ∃ i config bump,
          Site.address ⟨(calls k).program, .config .subscription⟩ = .ok (config, bump) ∧
          Subscriptions.fulfillRandomWords (calls k).program authority r randomness = .ok i ∧
          i.accounts = [.writableSigner authority, .readonly config, .writable h.address,
            .writable (calls k).requester, .readonly b.consumerProgram,
            .readonly Instruction.instructionsAccount] ++ b.callbackAccounts.map AccountMeta.unsigned) ∧
    (maxCallbackAccounts < b.callbackAccounts.length →
      ∀ x ∈ A.exchanges, x.caller = k → ∀ is signers, x.question ≠ .submit is signers) := by
  intro A
  obtain ⟨_, backed⟩ := Ledger.backed distinct ts past
  obtain ⟨⟨σ, backed, kept⟩, each⟩ := Arena.submits distinct backed within inside
  obtain ⟨stands, submits⟩ := each k
  have hP := (within k).1
  constructor
  · intro h data returned found
    rw [returned] at stands
    obtain ⟨x, hx, ⟨_, sent⟩, creates⟩ := stands.created
    obtain ⟨r, read, named, files, some⟩ := creates.filed (submits b mode x hx _ _ sent) mode hP backed
      (kept x (Arena.mem_asked.1 hx).1) found
    have metas := files.callback.callbackMetas
    refine ⟨r, read, metas, fun j => files.callback.unused, fun authority randomness => ?_⟩
    have configured : σ (.coordinatorConfig (calls k).program) ≠ none := by
      intro vacant
      rw [Registry.requestCount_of_vacant vacant] at some
      exact Nat.lt_irrefl 0 some
    obtain ⟨config, stored⟩ := Option.ne_none_iff_exists'.1 configured
    obtain ⟨a, bump, ha, _⟩ := backed.fits.stored (.coordinatorConfig (calls k).program) config stored
    obtain ⟨_, place⟩ := creates.place
    rw [← named, Call.generation, Client.generation, mode] at place
    obtain ⟨i, made, accounts⟩ :=
      Subscriptions.fulfillRandomWords_accounts ha place authority randomness
    rw [metas, files.requester, files.consumer] at accounts
    exact ⟨i, a, bump, ha, made, accounts⟩
  · intro many x hx caller is signers sent
    have few := (submits b mode x (Arena.mem_asked.2 ⟨hx, caller⟩) is signers sent).few
    exact absurd few (Nat.not_le.2 many)

end

namespace Recorded

/-- Two callers: one with three callback accounts, of which one signs and one is repeated, and one with five. -/
def calling (many : Bool) : Call where
  client := ⟨program, .subscription ⟨0, consumer, 200000,
    if many then List.replicate 5 ⟨consumer, false, false⟩
    else [⟨consumer, true, true⟩, ⟨program, false, false⟩, ⟨consumer, false, true⟩]⟩⟩
  requester := consumer
  seed := List.replicate 32 1
  numWords := some 2

def funding : Submission where
  operations := [.command program (.fundSubscription consumer 0 5)]
  signers := [consumer]

def calls : List (Move Bool) :=
  List.replicate 4 (.turn false) ++ [.transact funding] ++ List.replicate 4 (.turn true)

def called : Arena Bool (Except ClientError RequestHandle) :=
  let _ := crypto
  (Arena.start (Ledger.history [offering 7 100]).1 fun k => (calling k).start).run calls

theorem called_returns :
    ((returned? called false).map fun h => (called.ledger.get? h.address).isSome) = some true := by
  decide +kernel

/-- The first request still says its three accounts, without a signature; the second call has sent nothing. -/
theorem called_survives :
    let _ := crypto
    (∃ h data r, called.Returned false (.ok h) ∧ called.ledger.get? h.address = some data ∧
      Kind.wordsRequest.decode data = .ok r ∧
      r.callbackMetas = [⟨consumer, false, true⟩, ⟨program, false, false⟩, ⟨consumer, false, true⟩] ∧
      r.callbackAccounts[3]? = some Address.zero ∧ r.callbackWritableBitmap.toNat.testBit 3 = false) ∧
    ∀ x ∈ called.exchanges, x.caller = true → ∀ is signers, x.question ≠ .submit is signers := by
  intro _
  have past : ∀ t ∈ [offering 7 100], t.Over Set.univ := by
    simp [Submission.Over, offering, Operation.Over]
  have within : ∀ k, (calling k).Over Set.univ := fun k => ⟨Set.mem_univ _, fun _ _ => Set.mem_univ _⟩
  have inside : ∀ m ∈ calls, m.Over Set.univ := by
    simp [calls, Move.Over, Submission.Over, funding, Operation.Over]
  have survive (k : Bool) :=
    Arena.callbacks_survive distinct [offering 7 100] past calling within calls inside k _ rfl
  constructor
  · obtain ⟨h, returned, there⟩ := Option.map_eq_some_iff.1 called_returns
    obtain ⟨data, found⟩ := Option.isSome_iff_exists.1 there
    obtain ⟨r, read, metas, unused, _⟩ := (survive false).1 h data (returned_of_eq returned) found
    obtain ⟨slot, bit⟩ := unused 3 (by decide)
    have last : r.callbackAccounts[3]? = some Address.zero :=
      (Vector.getElem?_eq_getElem (by decide)).trans (congrArg some (slot (by decide)))
    exact ⟨h, data, r, returned_of_eq returned, found, read, metas, last, bit⟩
  · exact (survive true).2 (by decide)

end Recorded

end Randomness
