import Randomness.Proofs.Conversation
import Randomness.Proofs.Operation

/-!
A call of `finalize`, question by question: it reads the request, consumes it unless it finds it consumed, reads
it again, and closes it.
-/

namespace Randomness

/-- A call of `finalize` on what is observed with a handle. -/
structure Finalization where
  client : Client
  requester : Address
  handle : RequestHandle

namespace Finalization

abbrev program (f : Finalization) : Address := f.client.program

/-- What is left of a call. -/
abbrev Rest := LedgerDialogue (Except ClientError (Block 32))

/-- It ends with an error. -/
def Fails (d : Rest) : Prop := ∃ e, d = .done (.error e)

/-- The request is read, and the call goes on with a record of this generation, or fails. -/
inductive Reads (f : Finalization) (g : Generation) (goes : RequestAccount → Rest → Prop) : Rest → Prop
  | ask {next : Except LedgerError (Option Bytes) → Rest}
      (found : ∀ data r, RequestAccount.decode g data = .ok r → Fails (next (.ok (some data))) ∨
        goes r (next (.ok (some data))))
      (otherwise : ∀ a, (∀ data r, a = .ok (some data) → RequestAccount.decode g data ≠ .ok r) →
        Fails (next a)) :
      Reads f g goes (.ask (.account f.handle.address) next)

variable [Crypto]

/-- A command is sent in a transaction of its own, and the call goes on if it is carried out. -/
inductive Sends (f : Finalization) (c : Command) (goes : Rest → Prop) : Rest → Prop
  | ask {i : Instruction} {next : Except LedgerError Execution → Rest} (made : c.instruction f.program = .ok i)
      (refused : ∀ e, Fails (next (.error e))) (accepted : ∀ x, goes (next (.ok x))) :
      Sends f c goes (.ask (.submit [i] [f.requester]) next)

/-- The request is closed, and its randomness returned. -/
def Closing (f : Finalization) (id : UInt64) (randomness : Block 32) : Rest → Prop :=
  f.Sends (.closeRequest f.requester id) fun d => d = .done (.ok randomness)

/-- The request is read and closed. -/
def Checking (f : Finalization) (id : UInt64) : Rest → Prop :=
  f.Reads .legacy fun r d => r.status = .consumed ∧ f.Closing id r.randomness d

def Consuming (f : Finalization) (id : UInt64) : Rest → Prop :=
  f.Sends (.consumeRandomness f.requester id) (f.Checking id)

/-- The request is read, and consumed if it has to be. -/
def Reading (f : Finalization) (id : UInt64) : Rest → Prop :=
  f.Reads .legacy fun _ d => f.Consuming id d ∨ f.Checking id d

/-- The request is observed. -/
def Looking (f : Finalization) : Rest → Prop :=
  f.Reads f.handle.generation fun r d => f.Reading r.requestId d

def start (f : Finalization) : Rest :=
  ExceptT.run (m := LedgerDialogue) do
    match ← Client.observe f.handle with
    | .found v => f.client.finalize f.requester v
    | .notFound _ => throw (ClientError.notFound "randomness request" f.handle.address)

/-- The last step, on a record that was read. -/
def close (f : Finalization) (id : UInt64) (r : RequestAccount) : ClientM (Block 32) := do
  if r.status ≠ .consumed then
    throw (.lifecycle (.wrongState id .consumed r.status))
  let i ← Client.built (Legacy.closeRequest f.program f.requester id)
  let _ ← Client.submitAll [i] [f.requester]
  return r.randomness

variable {f : Finalization}

theorem sends (c : Command) (goes : Rest → Prop) {k : Execution → ClientM (Block 32)}
    (accepted : ∀ x, goes (k x).run) :
    let d := (Client.built (c.instruction f.program) >>= fun i => Client.submitAll [i] [f.requester] >>= k).run
    Fails d ∨ f.Sends c goes d := by
  intro d
  cases made : c.instruction f.program with
  | error e =>
    refine .inl ⟨.ofBuild e, ?_⟩
    simp only [d, Client.run_built, made]
  | ok i =>
    refine .inr ?_
    simp only [d, Client.run_built, made, Client.run_submitAll]
    exact .ask made (fun e => ⟨_, rfl⟩) accepted

omit [Crypto] in
theorem reads {v : RequestView} {goes : RequestAccount → Rest → Prop} {k : RequestAccount → ClientM (Block 32)}
    (legacy : f.client.generation = .legacy) (here : v.address = f.handle.address)
    (found : ∀ r, Fails (k r).run ∨ goes r (k r).run) : f.Reads .legacy goes (f.client.reread v >>= k).run := by
  rw [Client.reread, bind_assoc, Client.run_account, here, legacy]
  refine .ask (fun data r read => ?_) fun a unread => ?_
  · simp only [Client.run_decoded, read]
    exact found r
  · rcases a with e | _ | data
    · exact ⟨_, rfl⟩
    · exact ⟨_, rfl⟩
    · cases read : RequestAccount.decode .legacy data with
      | error e => exact ⟨.decode e, by simp only [Client.run_decoded, read]⟩
      | ok r => exact absurd read (unread data r rfl)

theorem checks {v : RequestView} (legacy : f.client.generation = .legacy) (here : v.address = f.handle.address)
    (id : UInt64) : f.Checking id (f.client.reread v >>= f.close id).run := by
  refine reads legacy here fun r => ?_
  rw [close]
  by_cases consumed : r.status = .consumed
  · simp only [consumed, ne_eq, not_true_eq_false, if_false]
    rcases sends (f := f) (.closeRequest f.requester id) (fun d => d = .done (.ok r.randomness))
      (k := fun _ => pure r.randomness) (fun x => rfl) with fails | closes
    · exact .inl fails
    · exact .inr ⟨trivial, closes⟩
  · simp only [consumed, ne_eq, not_false_eq_true, if_true]
    exact .inl ⟨_, rfl⟩

theorem finalize_eq (v : RequestView) : f.client.finalize f.requester v =
    if f.client.generation ≠ .legacy then throw (.lifecycle (.unsupportedGeneration "finalize" .legacy))
    else if v.account.status = .pending then
      throw (.lifecycle (.wrongState v.account.requestId .fulfilled .pending))
    else f.client.reread v >>= fun r => match r.status with
      | .fulfilled =>
        Client.built (Legacy.consumeRandomness f.program f.requester v.account.requestId) >>= fun i =>
        Client.submitAll [i] [f.requester] >>= fun _ => f.client.reread v >>= f.close v.account.requestId
      | .consumed => f.client.reread v >>= f.close v.account.requestId
      | .pending => throw (.lifecycle (.wrongState v.account.requestId .fulfilled .pending)) := by
  rw [Client.finalize]
  split
  · rfl
  · split
    · rfl
    · refine congrArg (f.client.reread v >>= ·) (funext fun r => ?_)
      cases r.status <;> rfl

/-- On a view of the request, a call fails or reads the request again. -/
theorem finalizes {v : RequestView} (here : v.address = f.handle.address) :
    let d := (f.client.finalize f.requester v).run
    Fails d ∨ f.Reading v.account.requestId d := by
  intro d
  simp only [d, finalize_eq]
  by_cases legacy : f.client.generation = .legacy
  · by_cases pending : v.account.status = .pending
    · simp only [legacy, ne_eq, not_true_eq_false, if_false, pending, if_true]
      exact .inl ⟨_, rfl⟩
    · simp only [legacy, ne_eq, not_true_eq_false, if_false, pending]
      refine .inr (reads legacy here fun r => ?_)
      cases r.status with
      | fulfilled =>
        have sent := sends (f := f) (.consumeRandomness f.requester v.account.requestId)
          (f.Checking v.account.requestId) fun _ => checks legacy here v.account.requestId
        exact sent.imp_right .inl
      | consumed => exact .inr (.inr (checks legacy here v.account.requestId))
      | pending => exact .inl ⟨_, rfl⟩
  · simp only [legacy, ne_eq, not_false_eq_true, if_true]
    exact .inl ⟨_, rfl⟩

/-- A call starts with the observation of its view. -/
theorem looks (f : Finalization) : f.Looking f.start := by
  rw [start, Client.observe, bind_assoc, Client.run_account]
  refine .ask (fun data r read => ?_) fun a unread => ?_
  · simp only [bind_assoc, Client.run_decoded, read]
    exact finalizes rfl
  · rcases a with e | _ | data
    · exact ⟨_, rfl⟩
    · exact ⟨_, rfl⟩
    · cases read : RequestAccount.decode f.handle.generation data with
      | error e => exact ⟨.decode e, by simp only [bind_assoc, Client.run_decoded, read]⟩
      | ok r => exact absurd read (unread data r rfl)

end Finalization

end Randomness
