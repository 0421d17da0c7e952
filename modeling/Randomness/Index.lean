import Randomness.Client.Wait

/-!
Requests that live as leaves of a state tree, observed through an index of such leaves. The index may
hold leaves of other kinds; they are passed over.
-/

namespace Randomness

/-- A leaf as the index tells it. -/
structure IndexEntry where
  hash : Block 32
  address : Option (Block 32)
  tree : Option Address
  leafIndex : UInt32
  /-- A discriminator and a record. -/
  data : Bytes
  deriving DecidableEq

/-- An index is asked for all entries of an owner. -/
abbrev IndexAnswer (_ : Address) : Type := Except LedgerError (List IndexEntry)

abbrev IndexM := ExceptT ClientError (Dialogue Address IndexAnswer)

/-- A request with the place of its leaf. -/
structure IndexedRequest where
  request : CompressedRequest
  hash : Block 32
  address : Option (Block 32)
  tree : Option Address
  leafIndex : UInt32
  deriving DecidableEq

def IndexedRequest.isFulfilled (r : IndexedRequest) : Bool := r.request.status == .fulfilled

def IndexEntry.request? (e : IndexEntry) : Option IndexedRequest :=
  match Kind.compressedRequest.decode e.data with
  | .ok request =>
    some { request, hash := e.hash, address := e.address, tree := e.tree, leafIndex := e.leafIndex }
  | .error _ => none

namespace Index

def entries (owner : Address) : IndexM (List IndexEntry) :=
  .mk <| .ask owner fun (r : Except LedgerError (List IndexEntry)) => .done (r.mapError .ledger)

def fetchAll (owner : Address) : IndexM (List IndexedRequest) := do
  return (← entries owner).filterMap IndexEntry.request?

/-- Requests of the program that nobody has fulfilled yet. -/
def fetchPending (program : Address) : IndexM (List IndexedRequest) := do
  return (← fetchAll program).filter fun r => r.request.status = .pending

def find (program : Address) (id : UInt64) : IndexM (Option IndexedRequest) := do
  return (← fetchAll program).find? fun r => r.request.requestId = id

/-- Searches the index at once, after every `interval` milliseconds and when `timeout` milliseconds
have passed, until the request is fulfilled. A request that is not indexed yet is waited for. -/
def wait (program : Address) (id : UInt64) (timeout interval : Nat) : IndexM IndexedRequest :=
  Wait.loop poll id timeout interval () 0 0
where
  poll (_ : Unit) : IndexM (IndexedRequest ⊕ Unit) := do
    match ← find program id with
    | some r => if r.isFulfilled then return .inl r else return .inr ()
    | none => return .inr ()

end Index

end Randomness
