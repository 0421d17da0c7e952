import Randomness.Client.Wait
import Randomness.Simulation.World

/-!
A session: steps of one client on one ledger, with what others do to the ledger between them and
while the client waits.
-/

namespace Randomness.Simulation

variable [Crypto]

/-- What others do on the ledger. -/
inductive LedgerStep where
  | transact (instructions : Except BuildError (List Instruction)) (signers : List Address)
  | fulfillLegacy (authority : Secret) (id : UInt64) (randomness : Block 32)
  | fulfillSubscription (authority : Secret) (id : UInt64) (randomness : Block 32)
  | mutate (m : Mutation)
  | account (a : Address)
  | transactions

inductive LedgerResult where
  | execution (r : Except LedgerError Execution)
  | unbuilt (e : BuildError)
  | mutated
  | account (data : Option Bytes)
  | transactions (n : UInt64)

def LedgerStep.run (s : LedgerStep) (program : Address) (l : Ledger) : Except Crash (Ledger × LedgerResult) :=
  match s with
  | transact (.error e) _ => .ok (l, .unbuilt e)
  | transact (.ok is) signers => (l.answer is signers).map fun (l, r) => (l, .execution r)
  | fulfillLegacy k id r => (l.fulfillLegacy program k id r).map fun (l, r) => (l, .execution r)
  | fulfillSubscription k id r => (l.fulfillSubscription program k id r).map fun (l, r) => (l, .execution r)
  | mutate m => .ok (m.apply l, .mutated)
  | account a => .ok (l, .account (l.get? a))
  | transactions => .ok (l, .transactions l.transactions)

/-- A step of others and when it happens, in milliseconds. -/
structure Appointment where
  time : Nat
  step : LedgerStep

/-- A world with a clock. -/
structure Timeline where
  program : Address
  world : World
  now : Nat
  /-- By ascending time. -/
  ahead : List Appointment
  /-- Results so far, newest first. -/
  results : List LedgerResult

namespace Timeline

/-- Carries out the appointments up to a time; the rest stays ahead. -/
def keep (program : Address) (limit : Option Nat) :
    List Appointment → Ledger → List LedgerResult → Except Crash (Ledger × List LedgerResult × List Appointment)
  | [], l, rs => .ok (l, rs, [])
  | a :: as, l, rs =>
    if limit.all (a.time ≤ ·) then do
      let (l, r) ← a.step.run program l
      keep program limit as l (r :: rs)
    else .ok (l, rs, a :: as)

def advance (limit : Option Nat) (t : Timeline) : Except Crash Timeline := do
  let (ledger, results, ahead) ← keep t.program limit t.ahead t.world.ledger t.results
  return { t with world := { t.world with ledger }, results, ahead }

abbrev Run := StateT Timeline (Except Crash)

def answer (q : LedgerRequest) : Run q.Answer := fun t => do
  let (w, r) ← t.world.answer q
  return (r, { t with world := w })

def pass (ms : Nat) : Run Unit := fun t => do
  let t ← t.advance (some (t.now + ms))
  return ((), { t with now := t.now + ms })

/-- Runs a conversation, and then what is still ahead. -/
def converse (d : LedgerDialogue α) (t : Timeline) : Except Crash (α × Timeline) := do
  let (a, t) ← (← t.advance (some 0)) |> d.run answer pass
  return (a, ← t.advance none)

end Timeline

/-- Handles and views are named by their numbers in the session. -/
inductive ClientStep where
  | generation
  | submit (requester : Address) (seed : Bytes) (numWords : Option UInt32)
  | watch (g : Generation) (id : UInt64)
  | markSeen (handle : Nat)
  | observe (handle : Nat)
  | finalize (requester : Address) (view : Nat)
  | createSubscription (owner : Address)
  | fundSubscription (funder : Address) (id amount : UInt64)
  | addConsumer (owner : Address) (id : UInt64) (consumer : Address)
  | removeConsumer (owner : Address) (id : UInt64) (consumer : Address)
  | cancelSubscription (owner : Address) (id : UInt64)
  | fetchConfig
  | fetchSubscription (id : UInt64)
  | fetchRegistration (id : UInt64) (consumer : Address)
  | wait (handle : Nat) (timeout interval : Nat) (ahead : List Appointment)
  | waitAll (handles : List Nat) (timeout interval : Nat) (ahead : List Appointment)

inductive Step where
  | ledger (s : LedgerStep)
  | client (s : ClientStep) (injections : List Injection)

inductive Answer where
  | about (g : Generation) (program : Address) (transactions : UInt64)
  | handle (h : RequestHandle)
  | observation (o : Observation)
  | block (b : Block 32)
  | number (n : UInt64)
  | execution (x : Execution)
  | config (c : ConfigAccount)
  | subscription (s : Subscription)
  | registration (r : Option ConsumerRegistration)
  | wait (timeline : List LedgerResult) (outcome : Except ClientError WaitOutcome) (seen : Bool)
  | waitAll (timeline : List LedgerResult) (outcomes : List (Except ClientError WaitOutcome))
  | ledger (r : LedgerResult)

inductive StepError where
  | noSuchHandle
  | noSuchView
  | client (e : ClientError)

structure Report where
  result : Except StepError Answer
  calls : List Call

structure Session where
  client : Client
  ledger : Ledger
  handles : List RequestHandle
  views : List RequestView

namespace Session

def start (c : Client) : Session := ⟨c, Ledger.fresh, [], []⟩

/-- What a step of the client leads to, with the handles and views that it adds. -/
structure Consequence where
  result : Except StepError Answer
  handles : List RequestHandle
  views : List RequestView

def consequence (r : Except ClientError α) (f : α → Answer) : Consequence :=
  ⟨(r.mapError .client).map f, [], []⟩

def addHandle (r : Except ClientError RequestHandle) : Consequence :=
  { consequence r .handle with handles := r.toOption.toList }

def addView (r : Except ClientError Observation) : Consequence :=
  { consequence r .observation with
    views := match r with
      | .ok (.found v) => [v]
      | _ => [] }

/-- Carries out a conversation and reports it. -/
def talk (s : Session) (injections : List Injection) (ahead : List Appointment) (d : LedgerDialogue α)
    (f : α → List LedgerResult → Consequence) : Except Crash (Session × Report) := do
  let (a, t) ← Timeline.converse d ⟨s.client.program, World.start s.ledger injections, 0, ahead, []⟩
  let c := f a t.results.reverse
  return ({ s with ledger := t.world.ledger, handles := s.handles ++ c.handles, views := s.views ++ c.views },
    ⟨c.result, t.world.calls.reverse⟩)

def refuse (s : Session) (e : StepError) : Except Crash (Session × Report) := .ok (s, ⟨.error e, []⟩)

def withHandle (s : Session) (n : Nat) (f : RequestHandle → Except Crash (Session × Report)) :
    Except Crash (Session × Report) :=
  match s.handles[n]? with
  | some h => f h
  | none => s.refuse .noSuchHandle

def clientStep (s : Session) (injections : List Injection) :
    ClientStep → Except Crash (Session × Report)
  | .generation =>
    .ok (s, ⟨.ok (.about s.client.generation s.client.program s.ledger.transactions), []⟩)
  | .submit requester seed numWords =>
    s.talk injections [] (s.client.submit requester seed numWords).run fun r _ => addHandle r
  | .watch g id =>
    s.talk injections [] (.done ()) fun _ _ =>
      addHandle ((RequestHandle.watch s.client.program g id).mapError .derivation)
  | .markSeen n => s.withHandle n fun h =>
    let h := { h with seen := true }
    .ok ({ s with handles := s.handles.set n h }, ⟨.ok (.handle h), []⟩)
  | .observe n => s.withHandle n fun h => s.talk injections [] (Client.observe h).run fun r _ => addView r
  | .finalize requester n => match s.views[n]? with
    | none => s.refuse .noSuchView
    | some v => s.talk injections [] (s.client.finalize requester v).run fun r _ => consequence r .block
  | .createSubscription owner =>
    s.talk injections [] (s.client.createSubscription owner).run fun r _ => consequence r .number
  | .fundSubscription funder id amount =>
    s.talk injections [] (s.client.fundSubscription funder id amount).run fun r _ => consequence r .execution
  | .addConsumer owner id consumer =>
    s.talk injections [] (s.client.addConsumer owner id consumer).run fun r _ => consequence r .execution
  | .removeConsumer owner id consumer =>
    s.talk injections [] (s.client.removeConsumer owner id consumer).run fun r _ => consequence r .execution
  | .cancelSubscription owner id =>
    s.talk injections [] (s.client.cancelSubscription owner id).run fun r _ => consequence r .execution
  | .fetchConfig => s.talk injections [] s.client.fetchConfig.run fun r _ => consequence r .config
  | .fetchSubscription id =>
    s.talk injections [] (s.client.fetchSubscription id).run fun r _ => consequence r .subscription
  | .fetchRegistration id consumer =>
    s.talk injections [] (s.client.fetchRegistration id consumer).run fun r _ => consequence r .registration
  | .wait n timeout interval ahead => s.withHandle n fun h =>
    s.talk injections ahead (Client.wait h timeout interval).run fun r rs =>
      ⟨.ok (.wait rs r h.seen), [], []⟩
  | .waitAll ns timeout interval ahead => match ns.mapM fun n => s.handles[n]? with
    | none => s.refuse .noSuchHandle
    | some hs => s.talk injections ahead (Client.waitAll hs timeout interval) fun r rs =>
      ⟨.ok (.waitAll rs r), [], []⟩

def step (s : Session) : Step → Except Crash (Session × Report)
  | .ledger l => (l.run s.client.program s.ledger).map fun (ledger, r) =>
    ({ s with ledger }, ⟨.ok (.ledger r), []⟩)
  | .client c injections => s.clientStep injections c

def run (s : Session) : List Step → Except Crash (List Report)
  | [] => .ok []
  | x :: xs => do
    let (s, r) ← s.step x
    return r :: (← s.run xs)

end Session

end Randomness.Simulation
