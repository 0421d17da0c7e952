import Randomness.Node
import Randomness.Text.Base64

/-!
A node behind a server. Every question is one call or, for a transaction that is sent, a series of
calls; calls are numbered.
-/

namespace Randomness.Node.Remote

open Document Http

/-- How transactions are put on the wire: their text, and the signature that names them. -/
structure Wire where
  encode : Transaction → String
  signature : Transaction → Signature

/-- A wire on which data may be compressed. They are unpacked unless they are broken. -/
structure Medium extends Wire where
  unpack? : Bytes → Option Bytes

/-- A wire on which no compressed data can be read. -/
instance : Coe Wire Medium := ⟨fun w => ⟨w, fun _ => none⟩⟩

/-- A server, with the number of the next call. -/
structure Link where
  server : Server
  nextId : Nat

/-! ## Calls -/

def request (id : Nat) (method : String) (params : List Document) : Document :=
  record [("jsonrpc", text "2.0"), ("id", number id), ("method", text method), ("params", array params)]

/-- The status by which a server asks for patience. -/
def tooManyRequests : Nat := 429

/-- Posts again, up to so many times, while the server asks for patience. -/
def postPatiently (times : Nat) (s : Server) (d : Document) : Option Response × Server :=
  match s.post d with
  | (none, s) => (none, s)
  | (some r, s) =>
    if r.status = tooManyRequests then match times with
      | 0 => (some r, s)
      | times + 1 => postPatiently times s d
    else (some r, s)

theorem postPatiently_responses_of_ne {times : Nat} {s s' : Server} {d : Document} {r : Response}
    (h : postPatiently times s d = (some r, s')) (hr : r.status ≠ 500) :
    s'.responses.length < s.responses.length := by
  induction times generalizing s with
  | zero =>
    unfold postPatiently at h
    split at h
    · simp at h
    · next hp =>
      obtain ⟨rfl, rfl⟩ : _ = r ∧ _ = s' := by simpa using h
      exact Server.post_responses_of_ne hp hr
  | succ times ih =>
    unfold postPatiently at h
    split at h
    · simp at h
    · next t hp =>
      split at h
      · have le := Server.post_responses_le s d
        rw [hp] at le
        exact Nat.lt_of_lt_of_le (ih h) le
      · obtain ⟨rfl, rfl⟩ : _ = r ∧ _ = s' := by simpa using h
        exact Server.post_responses_of_ne hp hr

def Preflight.read? (d : Document) : Option Preflight := do
  let m ← d.record? ["err", "logs", "accounts", "unitsConsumed", "loadedAccountsDataSize", "returnData",
    "innerInstructions", "replacementBlockhash"]
  let _ ← optional u64? (m "unitsConsumed")
  let logs ← optional (list? text?) (m "logs")
  return ⟨← optional TransactionError.read? (m "err"), logs.getD []⟩

/-- The code of the error that a transaction was refused when it was tried. -/
def preflightFailure : Int := -32002

def errorOf (d : Document) : NodeError :=
  let read : Option NodeError := do
    let m ← d.record? ["code", "message"]
    let code ← required int64? (m "code")
    let message ← required text? (m "message")
    return .response code message
      (if code = preflightFailure then d.member? "data" >>= Preflight.read? else none)
  read.getD .malformedError

/-- The result in an answer. An error object counts even beside a result. -/
def resultOf (url : String) (r : Response) : Except NodeError Document :=
  if !r.isSuccess then .error (.transport url (.status r.status))
  else match r.body.document? >>= tree? 127 with
    | none => .error (.transport url .body)
    | some d => match d.member? "error" with
      | some (.object ms) => .error (errorOf (.object ms))
      | _ => .ok ((d.member? "result").getD .null)

/-- Calls a method of the node. -/
def call (method : String) (params : List Document) (l : Link) : Except NodeError Document × Link :=
  match postPatiently 5 l.server (request l.nextId method params) with
  | (none, s) => (.error (.transport s.url .transport), ⟨s, l.nextId + 1⟩)
  | (some r, s) => (resultOf s.url r, ⟨s, l.nextId + 1⟩)

/-- A call that succeeds uses up a response. -/
theorem responses_lt_of_call {method : String} {params : List Document} {l l' : Link} {d : Document}
    (h : call method params l = (.ok d, l')) :
    l'.server.responses.length < l.server.responses.length := by
  unfold call at h
  split at h
  · simp at h
  · next r s hp =>
    obtain ⟨hr, rfl⟩ := Prod.mk.injEq .. ▸ h
    apply postPatiently_responses_of_ne hp
    intro status
    simp [resultOf, Response.isSuccess, status] at hr

def readAs (read : Document → Option α) (d : Document) : Except NodeError α :=
  match read d with
  | some a => .ok a
  | none => .error .malformedResult

/-- Calls a method whose result has a form. -/
def callAs (method : String) (params : List Document) (read : Document → Option α) (l : Link) :
    Except NodeError α × Link :=
  let (r, l) := call method params l
  (r >>= readAs read, l)

theorem responses_lt_of_callAs {method : String} {params : List Document} {read : Document → Option α}
    {l l' : Link} {a : α} (h : callAs method params read l = (.ok a, l')) :
    l'.server.responses.length < l.server.responses.length := by
  rcases hc : call method params l with ⟨r, l''⟩
  simp only [callAs, hc, Prod.mk.injEq] at h
  obtain ⟨hr, rfl⟩ := h
  match r with
  | .ok d => exact responses_lt_of_call hc
  | .error e => simp [bind, Except.bind] at hr

/-! ## Accounts -/

/-- The value in `{context, value}`. -/
def inContext? (read : Option Document → Option α) (d : Document) : Option α := do
  let m ← d.record? ["context", "value"]
  let c ← required (record? ["slot", "apiVersion"]) (m "context")
  let _ ← required u64? (c "slot")
  let _ ← optional text? (c "apiVersion")
  read (m "value")

inductive Encoding where
  | base58
  | base64
  /-- Compressed, and then in base 64. -/
  | compressed
  /-- A form without bytes. -/
  | other
  deriving DecidableEq

def Encoding.read? (d : Document) : Option Encoding := do
  match ← d.text? with
  | "base58" => return .base58
  | "base64" => return .base64
  | "base64+zstd" => return .compressed
  | "binary" | "jsonParsed" => return .other
  | _ => none

section

variable (unpack? : Bytes → Option Bytes)

/-- The bytes that a text stands for. -/
def Encoding.decode? : Encoding → String → Option Bytes
  | base58, s => (Base58.decode s.toList).toOption
  | base64, s => (Base64.decode (Text.utf8 s.toList)).toOption
  | compressed, s => (Base64.decode (Text.utf8 s.toList)).toOption >>= unpack?
  | other, _ => none

/-- Account data: a text in base 58, or a text with the name of its encoding, or a parsed form, which
has no bytes. -/
def data? : Document → Option (Option Bytes)
  | string (some s) => some (Encoding.base58.decode? unpack? s)
  | array [d, e] => do
    let s ← d.text?
    return (← Encoding.read? e).decode? unpack? s
  | d => do
    let m ← d.record? ["program", "parsed", "space"]
    let _ ← required text? (m "program")
    let _ ← m "parsed"
    let _ ← required u64? (m "space")
    return none

structure NodeAccount where
  data : Option Bytes
  owner : String

def NodeAccount.read? (d : Document) : Option NodeAccount := do
  let m ← d.record? ["lamports", "data", "owner", "executable", "rentEpoch", "space"]
  let _ ← required u64? (m "lamports")
  let data ← required (data? unpack?) (m "data")
  let owner ← required text? (m "owner")
  let _ ← required bool? (m "executable")
  let _ ← required u64? (m "rentEpoch")
  let _ ← optional u64? (m "space")
  return ⟨data, owner⟩

/-- The data of an account whose owner can be read. -/
def NodeAccount.bytes? (a : NodeAccount) : Option Bytes :=
  match Address.parse a.owner with
  | .ok _ => a.data
  | .error _ => none

def commitment (level : String) : Document := record [("commitment", text level)]

def accountConfig (encoding : String) : List (String × Document) :=
  [("encoding", text encoding), ("dataSlice", null), ("commitment", text "confirmed"),
    ("minContextSlot", null)]

/-- An account's data. A failed call is explained, and so is an answer without a result. -/
def account (a : Address) (l : Link) : Except NodeError (Option Bytes) × Link :=
  let absent := "AccountNotFound: pubkey=" ++ a.text
  let (r, l) := call "getAccountInfo" [text a.text, record (accountConfig "base64+zstd")] l
  (match r with
    | .error e => .error (.explained (absent ++ ": " ++ e.message))
    | .ok null => .error (.explained absent)
    | .ok d =>
      (readAs (inContext? (optional (NodeAccount.read? unpack?))) d).map fun (found : Option NodeAccount) =>
        found.bind NodeAccount.bytes?,
    l)

def filterParam : DataFilter → Document
  | .size n => record [("dataSize", number n)]
  | .bytesAt offset expected =>
    record [("memcmp", record [("offset", number offset), ("encoding", text "bytes"),
      ("bytes", array (expected.map fun b => number b.toNat))])]

/-- A listed account: the text of its address, and what it holds. -/
def listed? (d : Document) : Option (String × NodeAccount) := do
  let m ← d.record? ["pubkey", "account"]
  return (← required text? (m "pubkey"), ← required (NodeAccount.read? unpack?) (m "account"))

/-- A list of accounts, in a context or without. -/
def accountList? (d : Document) : Option (List (String × NodeAccount)) :=
  inContext? (required (list? (listed? unpack?))) d <|> list? (listed? unpack?) d

def addressed (listed : String × NodeAccount) : Except NodeError (Address × Option Bytes) :=
  match Address.parse listed.1 with
  | .ok a => .ok (a, listed.2.data)
  | .error _ => .error (.expected "Pubkey")

def accounts (owner : Address) (filters : List DataFilter) (l : Link) :
    Except NodeError (List (Address × Option Bytes)) × Link :=
  let config := ("filters", array (filters.map filterParam)) :: accountConfig "base64" ++
    [("withContext", null), ("sortResults", null)]
  let (r, l) := callAs "getProgramAccounts" [text owner.text, record config] (accountList? unpack?) l
  (r >>= List.mapM addressed, l)

end

/-! ## Transactions -/

def blockhash? (d : Document) : Option String := do
  let m ← d.record? ["blockhash", "lastValidBlockHeight"]
  let hash ← required text? (m "blockhash")
  let _ ← required u64? (m "lastValidBlockHeight")
  return hash

def blockhash (l : Link) : Except NodeError (Block 32) × Link :=
  let (r, l) := callAs "getLatestBlockhash" [commitment "confirmed"] (inContext? (required blockhash?)) l
  (r >>= fun s => (Address.parse s).mapError fun _ => .expected "Hash", l)

/-- Why a text is no signature. A signature never takes more than 88 characters. -/
def signature (s : String) : Except NodeError Signature :=
  let wrongSize : NodeError := .expected "string decoded to wrong size for signature"
  if s.utf8ByteSize > 88 then .error wrongSize
  else match Base58.decode s.toList with
    | .error _ => .error (.expected "failed to decode string to signature")
    | .ok bs => match Block.ofBytes? 64 bs with
      | none => .error wrongSize
      | some b => .ok b

def signatureText (s : Signature) : String := Base58.encode s.bytes

/-- Hands a transaction to the node, which has to answer with its signature. -/
def deliver (w : Wire) (t : Transaction) (l : Link) : Except NodeError Signature × Link :=
  let config := record [("skipPreflight", bool false), ("preflightCommitment", text "confirmed"),
    ("encoding", text "base64"), ("maxRetries", null), ("minContextSlot", null)]
  let (r, l) := callAs "sendTransaction" [text (w.encode t), config] text? l
  (do
    let answered ← signature (← r)
    if answered = w.signature t then return answered
    else throw (.request ("RPC node returned mismatched signature " ++ signatureText answered ++
      ", expected " ++ signatureText (w.signature t))), l)

/-- How far the other nodes agree with what the node tells. -/
inductive Confirmation where
  | processed
  | confirmed
  | finalized
  deriving DecidableEq

def Confirmation.read? (d : Document) : Option Confirmation := do
  match ← d.text? with
  | "processed" => return .processed
  | "confirmed" => return .confirmed
  | "finalized" => return .finalized
  | _ => none

structure TransactionStatus where
  outcome : Except TransactionError Unit
  /-- None once the transaction cannot be undone any more. -/
  confirmations : Option UInt64
  confirmation : Option Confirmation

def outcome? (d : Document) : Option (Except TransactionError Unit) := do
  match ← TransactionError.named? d with
  | ("Ok", .null) => return .ok ()
  | ("Err", e) => return .error (← TransactionError.read? e)
  | _ => none

def TransactionStatus.read? (d : Document) : Option TransactionStatus := do
  let m ← d.record? ["slot", "confirmations", "status", "err", "confirmationStatus"]
  let _ ← required u64? (m "slot")
  let confirmations ← optional u64? (m "confirmations")
  let outcome ← required outcome? (m "status")
  let _ ← optional TransactionError.read? (m "err")
  return ⟨outcome, confirmations, ← optional Confirmation.read? (m "confirmationStatus")⟩

def TransactionStatus.isConfirmed (s : TransactionStatus) : Bool :=
  match s.confirmation, s.confirmations with
  | some c, _ => c ≠ .processed
  | none, some n => n > 1
  | none, none => true

/-- The first status in an answer, which is there. -/
def firstStatus? (d : Document) : Option (Option TransactionStatus) := do
  match ← list? (nullable TransactionStatus.read?) d with
  | s :: _ => return s.filter TransactionStatus.isConfirmed
  | [] => none

def status (s : Signature) : Link → Except NodeError (Option TransactionStatus) × Link :=
  callAs "getSignatureStatuses" [array [text (signatureText s)]] (inContext? (required firstStatus?))

def isValid (hash : Block 32) : Link → Except NodeError Bool × Link :=
  callAs "isBlockhashValid" [text (Address.text hash), commitment "processed"] (inContext? (required bool?))

def unconfirmed : String :=
  "unable to confirm transaction. This can happen in situations such as transaction expiration and " ++
    "insufficient fee-payer funds"

/-- Asks for the transaction's status until it is confirmed or its blockhash has become invalid. Every
question uses up a response, so the questions end. -/
def confirm (t : Transaction) (s : Signature) (l : Link) : Except NodeError Signature × Link :=
  match _h : status s l with
  | (.error e, l) => (.error e, l)
  | (.ok (some found), l) => (found.outcome.mapError .transaction |>.map fun _ => s, l)
  | (.ok none, l') => match _h' : isValid t.blockhash l' with
    | (.error e, l) => (.error e, l)
    | (.ok false, l) => (.error (.explained unconfirmed), l)
    | (.ok true, l'') => confirm t s l''
termination_by l.server.responses.length
decreasing_by exact Nat.lt_trans (responses_lt_of_callAs _h') (responses_lt_of_callAs _h)

def send (w : Wire) (t : Transaction) (l : Link) : Except NodeError Signature × Link :=
  match deliver w t l with
  | (.error e, l) => (.error e, l)
  | (.ok s, l) => confirm t s l

/-- The log of an executed transaction, where there is one. -/
def log? (d : Document) : Option (List String) := do
  let m ← d.record? ["err", "status", "fee", "preBalances", "postBalances", "logMessages"]
  let _ ← optional TransactionError.read? (m "err")
  let _ ← required outcome? (m "status")
  let _ ← required u64? (m "fee")
  let _ ← required (list? u64?) (m "preBalances")
  let _ ← required (list? u64?) (m "postBalances")
  let log ← optional (list? text?) (m "logMessages")
  return log.getD []

def effects? (d : Document) : Option (UInt64 × List String) := do
  let m ← d.record? ["slot", "transaction", "meta", "version", "blockTime"]
  let slot ← required u64? (m "slot")
  let _ ← m "transaction"
  let log ← optional log? (m "meta")
  let _ ← optional int64? (m "blockTime")
  return (slot, log.getD [])

def effects (s : Signature) : Link → Except NodeError (UInt64 × List String) × Link :=
  callAs "getTransaction" [text (signatureText s), record [("encoding", null),
    ("commitment", text "confirmed"), ("maxSupportedTransactionVersion", number 0)]] effects?

/-! ## Answers -/

/-- What the node behind a link answers. -/
def answer (w : Medium) : (q : NodeQuestion) → StateM Link q.Answer
  | .account a => account w.unpack? a
  | .accounts owner filters => accounts w.unpack? owner filters
  | .blockhash => blockhash
  | .send t => send w.toWire t
  | .effects s => effects s

/-- Holds a conversation with the node behind a link. -/
def run (w : Medium) (d : NodeM α) : StateM Link (Except LedgerError α) :=
  d.run.run (answer w) fun _ => pure ()

end Randomness.Node.Remote
