import Randomness.Http
import Randomness.Index
import Randomness.Instruction.Compressed
import Randomness.Text.Base64

/-!
An index behind a server. It lists entries page by page, tells the entry of one leaf, and proves that
leaves are valid. Items that are no entries are passed over in a list; a page of another form makes
the whole list fail.
-/

namespace Randomness.Index.Remote

open Document Http

/-! ## Calls -/

def request (method : String) (params : Document) : Document :=
  record [("jsonrpc", text "2.0"), ("id", text "1"), ("method", text method), ("params", params)]

/-- What the index says is wrong. -/
structure Fault where
  code : Int
  message : String

def Fault.read? (d : Document) : Option Fault := do
  let m ← d.record? ["code", "message"]
  return ⟨← required int64? (m "code"), ← required text? (m "message")⟩

/-- What the index says: a result, an error, or neither. -/
structure Reply (α : Type) where
  result : Option α
  error : Option Fault

def Reply.read? (read : Document → Option α) (d : Document) : Option (Reply α) := do
  let m ← d.record? ["result", "error"]
  return ⟨← optional read (m "result"), ← optional Fault.read? (m "error")⟩

/-- An error counts even beside a result. -/
def Reply.value (method : String) (r : Reply α) : Except LedgerError α :=
  match r.error, r.result with
  | some e, _ => .error (.indexer e.code e.message)
  | none, some a => .ok a
  | none, none => .error (.custom (method ++ " returned null result without error"))

def replyOf (read : Document → Option α) (r : Response) : Except LedgerError (Reply α) :=
  if r.isFailure then .error (.http (.status r.status))
  else match r.body.document? >>= Reply.read? read with
    | none => .error (.http .body)
    | some reply => .ok reply

/-- Calls a method of the index. -/
def call (method : String) (params : Document) (read : Document → Option α) (s : Server) :
    Except LedgerError α × Server :=
  match s.post (request method params) with
  | (none, s) => (.error (.http .transport), s)
  | (some r, s) => (replyOf read r >>= Reply.value method, s)

/-- A call that succeeds uses up a response. -/
theorem responses_lt_of_call {method : String} {params : Document} {read : Document → Option α}
    {s s' : Server} {a : α} (h : call method params read s = (.ok a, s')) :
    s'.responses.length < s.responses.length := by
  unfold call at h
  split at h
  · simp at h
  · next r t hp =>
    obtain ⟨hr, rfl⟩ := Prod.mk.injEq .. ▸ h
    apply Server.post_responses_of_ne hp
    intro status
    have failure : r.isFailure = true := by simp [Response.isFailure, status]
    simp [replyOf, failure, bind, Except.bind] at hr

/-! ## Entries -/

/-- The value in a result; what else a result says is not read. -/
def inResult? (read : Option Document → Option α) (d : Document) : Option α := do
  let m ← d.record? ["value"]
  read (m "value")

structure ItemData where
  text : String
  discriminator : Option UInt64

structure Item where
  hash : String
  address : Option String
  data : Option ItemData
  tree : Option String
  leafIndex : Option UInt32

def ItemData.read? (d : Document) : Option ItemData := do
  let m ← d.record? ["data", "discriminator"]
  return ⟨← required text? (m "data"), ← optional u64? (m "discriminator")⟩

def Item.read? (d : Document) : Option Item := do
  let m ← d.record? ["hash", "address", "data", "tree", "leafIndex"]
  return ⟨← required text? (m "hash"), ← optional text? (m "address"), ← optional ItemData.read? (m "data"),
    ← optional text? (m "tree"), ← optional u32? (m "leafIndex")⟩

/-- Why an item is no entry. -/
inductive ItemFault where
  | data (e : Base64.Fault)
  | hash (e : Base58.Fault)
  | size (what : String) (expected actual : Nat)
  | address (e : Address.Fault)
  | tree (e : Address.Fault)
  deriving DecidableEq

def ItemFault.message : ItemFault → String
  | data e => "invalid account data encoding: " ++ e.message
  | hash e => "invalid hash encoding: " ++ e.message
  | size what expected actual =>
    what ++ " has wrong size: expected " ++ toString expected ++ ", got " ++ toString actual
  | address e => "invalid address: " ++ e.message
  | tree e => "invalid tree pubkey: " ++ e.message

def block (what : String) (n : Nat) (bs : Bytes) : Except ItemFault (Block n) :=
  match Block.ofBytes? n bs with
  | some b => .ok b
  | none => .error (.size what n bs.length)

/-- The data, behind a discriminator that is told apart from them. -/
def ItemData.bytes (d : ItemData) : Except ItemFault Bytes := do
  let payload ← (Base64.decode (Text.utf8 d.text.toList)).mapError .data
  return match d.discriminator with
    | some n => (Codec.u64.write n).bytes ++ payload
    | none => payload

def addressOf (fault : Address.Fault → ItemFault) : Option String → Except ItemFault (Option Address)
  | some s => ((Address.parse s).mapError fault).map some
  | none => .ok none

/-- The entry of an item; an item without data has none. -/
def Item.entry? (i : Item) : Except ItemFault (Option IndexEntry) :=
  match i.data with
  | none => .ok none
  | some d => do
    let data ← d.bytes
    let hash ← block "hash" 32 (← (Base58.decode i.hash.toList).mapError .hash)
    let address ← addressOf .address i.address
    let tree ← addressOf .tree i.tree
    return some ⟨hash, address, tree, i.leafIndex.getD 0, data⟩

/-- The entry of the leaf at an address. -/
def entryAt (a : Block 32) (s : Server) : Except LedgerError (Option IndexEntry) × Server :=
  let (r, s) := call "getCompressedAccount" (record [("address", text (Base58.encode a.bytes))])
    (inResult? (optional Item.read?)) s
  (r >>= fun
    | some item => item.entry?.mapError fun e => .custom e.message
    | none => .ok none, s)

/-! ## Pages -/

structure Page where
  items : List Item
  cursor : Option String

def Page.read? (d : Document) : Option Page := do
  let m ← d.record? ["items", "cursor"]
  return ⟨← required (list? Item.read?) (m "items"), ← optional text? (m "cursor")⟩

def Page.entries (p : Page) : List IndexEntry :=
  p.items.filterMap fun i => match i.entry? with
    | .ok e => e
    | .error _ => none

/-- The cursor of the page that follows. -/
def Page.next? (p : Page) : Option String := p.cursor.filter (!·.isEmpty)

def pageLimit : Nat := 1000

def pageParams (owner : Address) (cursor : Option String) : Document :=
  record [("owner", text owner.text), ("cursor", ofOption text cursor), ("limit", number pageLimit)]

def page (owner : Address) (cursor : Option String) : Server → Except LedgerError Page × Server :=
  call "getCompressedAccountsByOwner" (pageParams owner cursor) (inResult? (required Page.read?))

/-- The entries from the page at a cursor on. Every page uses up a response, so the pages end. -/
def entriesFrom (owner : Address) (cursor : Option String) (s : Server) :
    Except LedgerError (List IndexEntry) × Server :=
  match _h : page owner cursor s with
  | (.error e, s) => (.error e, s)
  | (.ok p, s') => match p.next? with
    | none => (.ok p.entries, s')
    | some next =>
      let (r, s'') := entriesFrom owner (some next) s'
      (r.map (p.entries ++ ·), s'')
termination_by s.responses.length
decreasing_by exact responses_lt_of_call _h

/-- All entries of an owner. -/
def entries (owner : Address) (s : Server) : Except LedgerError (List IndexEntry) × Server :=
  entriesFrom owner none s

/-- Holds a conversation with the index behind a server. -/
def run (d : IndexM α) : StateM Server (Except ClientError α) := d.run.run entries fun _ => pure ()

/-! ## Proofs -/

/-- A proof, with the numbers of the roots that it refers to. -/
structure IndexedProof where
  proof : Compressed.ValidityProof
  rootIndices : List UInt16
  deriving DecidableEq

structure ProofValue where
  a : Bytes
  b : Bytes
  c : Bytes
  rootIndices : List UInt64

def ProofValue.read? (d : Document) : Option ProofValue := do
  let m ← d.record? ["compressedProof", "rootIndices"]
  let parts ← required (record? ["a", "b", "c"]) (m "compressedProof")
  return ⟨← required (list? u8?) (parts "a"), ← required (list? u8?) (parts "b"),
    ← required (list? u8?) (parts "c"), ← required (list? u64?) (m "rootIndices")⟩

def rootIndex (n : UInt64) : Except String UInt16 :=
  if n.toNat < UInt16.size then .ok n.toUInt16
  else .error ("root index " ++ toString n.toNat ++ " exceeds u16")

def ProofValue.proof (v : ProofValue) : Except String IndexedProof := do
  let part (what : String) (n : Nat) (bs : Bytes) := (block what n bs).mapError ItemFault.message
  let a ← part "validity proof 'a'" 32 v.a
  let b ← part "validity proof 'b'" 64 v.b
  let c ← part "validity proof 'c'" 32 v.c
  return ⟨⟨a, b, c⟩, ← v.rootIndices.mapM rootIndex⟩

/-- A proof that leaves with these hashes exist and that nothing is stored at these addresses. -/
def proofOf (hashes newAddresses : List (Block 32)) (s : Server) :
    Except LedgerError IndexedProof × Server :=
  let names (bs : List (Block 32)) := array (bs.map fun b => text (Base58.encode b.bytes))
  let (r, s) := call "getValidityProof"
    (record [("hashes", names hashes), ("newAddresses", names newAddresses),
      ("newAddressesWithTrees", array [])])
    (inResult? (required ProofValue.read?)) s
  (r >>= fun v => v.proof.mapError .custom, s)

end Randomness.Index.Remote
