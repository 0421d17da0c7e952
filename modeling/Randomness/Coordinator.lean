import Randomness.Account.Generations
import Randomness.Event
import Randomness.Instruction.Proof
import Randomness.Ledger.Accounts

/-!
The coordinator program: what each of its instructions does to the accounts, and why it may refuse.
-/

namespace Randomness

/-- Why an instruction is refused. -/
inductive Refusal where
  | missingSignature (key : Address)
  | missingAccount (position : Nat)
  | missingDiscriminator
  | dataTooShort
  | derivation (e : DerivationError)
  | wrongAddress (expected supplied : Address)
  | alreadyInUse (address : Address)
  | notCreated (address : Address)
  | malformed (e : DecodeError)
  | invalidProof
  | requestNotPending
  | requestNotFulfilled
  | requestNotConsumed
  | unauthorized
  | balanceOverflow
  | subscriptionHasConsumers
  | consumerNotRegistered
  | invalidNumWords
  | insufficientBalance
  | tooManyCallbackAccounts
  | unsupported (d : Discriminator)
  deriving DecidableEq

namespace Refusal

def message : Refusal → String
  | missingSignature key => "missing signature for " ++ key.text
  | missingAccount position => "missing account " ++ toString position
  | missingDiscriminator => "missing discriminator"
  | dataTooShort => "instruction data too short"
  | derivation e => e.message
  | wrongAddress expected supplied =>
    "ConstraintSeeds: expected " ++ expected.text ++ ", got " ++ supplied.text
  | alreadyInUse address => "account " ++ address.text ++ " already in use"
  | notCreated address => "AccountNotInitialized: " ++ address.text
  | malformed e => e.message
  | invalidProof => "InvalidProof"
  | requestNotPending => "RequestNotPending"
  | requestNotFulfilled => "RequestNotFulfilled"
  | requestNotConsumed => "RequestNotConsumed"
  | unauthorized => "Unauthorized"
  | balanceOverflow => "Overflow"
  | subscriptionHasConsumers => "SubscriptionHasConsumers"
  | consumerNotRegistered => "ConsumerNotRegistered"
  | invalidNumWords => "InvalidNumWords"
  | insufficientBalance => "InsufficientBalance"
  | tooManyCallbackAccounts => "TooManyCallbackAccounts"
  | unsupported d => "unsupported instruction " ++ DecodeError.listText d.bytes

end Refusal

/-- What ends execution without an answer. -/
inductive Crash where
  /-- An index or a slice past the end of a list. -/
  | pastEnd
  /-- A number leaves its type. -/
  | arithmetic
  deriving DecidableEq

inductive Fault where
  | refused (r : Refusal)
  | crashed (c : Crash)
  deriving DecidableEq

/-- A line of a transaction's log. -/
inductive LogEntry where
  | invoke (program : Address) (depth : Nat)
  | success (program : Address)
  | event (e : Event)
  deriving DecidableEq

def LogEntry.text : LogEntry → String
  | invoke program depth => "Program " ++ program.text ++ " invoke [" ++ toString depth ++ "]"
  | success program => "Program " ++ program.text ++ " success"
  | event e => e.logLine

/-- What an instruction leaves behind. -/
structure Effect where
  accounts : Accounts
  log : List LogEntry

/-- The transaction around an instruction. -/
structure Surroundings where
  slot : UInt64
  instructions : List Instruction
  signers : List Address

namespace Coordinator

abbrev Outcome := Except Fault

def refuse (r : Refusal) : Outcome α := .error (.refused r)

def crash (c : Crash) : Outcome α := .error (.crashed c)

def require (p : Prop) [Decidable p] (r : Refusal) : Outcome Unit :=
  if p then .ok () else refuse r

/-- The address at a position of the instruction's account list. -/
def key (i : Instruction) (position : Nat) : Outcome Address :=
  match i.accounts[position]? with
  | some m => .ok m.key
  | none => refuse (.missingAccount position)

/-- The argument at an offset of the instruction's data. -/
def argument (c : Codec α) (i : Instruction) (offset : Nat) : Outcome α :=
  match c.readAt? i.data offset with
  | some a => .ok a
  | none => refuse .dataTooShort

def load (k : Kind) (s : Accounts) (a : Address) : Outcome k.Record :=
  match s.get? a with
  | none => refuse (.notCreated a)
  | some data => (k.decode data).mapError fun e => .refused (.malformed e)

def store (k : Kind) (s : Accounts) (a : Address) (r : k.Record) : Accounts := s.insert a (k.encode r)

def create (k : Kind) (s : Accounts) (a : Address) (r : k.Record) : Outcome Accounts :=
  match s.get? a with
  | some _ => refuse (.alreadyInUse a)
  | none => .ok (store k s a r)

/-- `n + 1`, where it does not wrap. -/
def next64 (n : UInt64) : Outcome UInt64 :=
  if n.toNat + 1 < UInt64.size then .ok (n + 1) else crash .arithmetic

def next32 (n : UInt32) : Outcome UInt32 :=
  if n.toNat + 1 < UInt32.size then .ok (n + 1) else crash .arithmetic

def previous32 (n : UInt32) : Outcome UInt32 := if n = 0 then crash .arithmetic else .ok (n - 1)

def minus64 (m n : UInt64) : Outcome UInt64 := if n ≤ m then .ok (m - n) else crash .arithmetic

/-- The `n` bytes from offset `i`, which the string has to have. -/
def cut (bs : Bytes) (i n : Nat) : Outcome (Block n) :=
  match bs.slice? i n with
  | some b => .ok b
  | none => crash .pastEnd

/-- What a list has from position `n` on. -/
def behind (as : List α) (n : Nat) : Outcome (List α) :=
  if n ≤ as.length then .ok (as.drop n) else crash .pastEnd

section

variable [Crypto]

/-- The address and bump of a place, which the supplied address has to be. -/
def expect (supplied : Address) (p : Place) (program : Address) : Outcome (Address × UInt8) := do
  let (a, bump) ← (p.address program).mapError fun e => .refused (.derivation e)
  require (a = supplied) (.wrongAddress a supplied)
  return (a, bump)

/-- Whether an instruction carries the authority's signature over exactly this id and randomness. -/
def proves (authority : Address) (id : UInt64) (randomness : Block 32) (i : Instruction) : Bool :=
  i.program = Instruction.signatureProgram &&
    match i.data.slice? 16 32, i.data.slice? 48 64 with
    | some signer, some signature =>
      let message := i.data.drop 112
      signer = authority && message = (Proof.message id randomness).bytes &&
        Crypto.verify authority message signature
    | _, _ => false

/-- Whether data carries the authority's signature over a message. It is only cut if it is long enough for that. -/
def carries (authority : Address) (message data : Bytes) : Outcome Bool := do
  if data.length < 112 then return false
  let signature ← cut data 48 64
  let signer ← cut data 16 32
  if signer ≠ authority then return false
  let signed ← behind data 112
  return signed = message && Crypto.verify authority signed signature

/-- The transaction has to prove that the authority signed this id and randomness: in one of its signatures. -/
def requireProof (x : Surroundings) (authority : Address) (id : UInt64) (randomness : Block 32) :
    Outcome Unit := do
  let signatures := x.instructions.filter fun i => i.program = Instruction.signatureProgram
  let found ← signatures.anyM fun i => carries authority (Proof.message id randomness).bytes i.data
  require found .invalidProof

def initializeLegacy (i : Instruction) (s : Accounts) : Outcome Effect := do
  let (a, bump) ← expect (← key i 3) (.config .legacy) i.program
  let admin ← key i 0
  let authority ← key i 1
  let fee ← argument Codec.u64 i 8
  let treasury ← key i 2
  let s ← create .legacyConfig s a { admin, authority, fee, requestCounter := 0, treasury, bump }
  return ⟨s, []⟩

def initializeSubscription (i : Instruction) (s : Accounts) : Outcome Effect := do
  let (a, bump) ← expect (← key i 2) (.config .subscription) i.program
  let admin ← key i 0
  let authority ← key i 1
  let feePerWord ← argument Codec.u64 i 8
  let maxNumWords ← argument Codec.u32 i 16
  let s ← create .coordinatorConfig s a
    { admin, authority, feePerWord, maxNumWords, requestCounter := 0, subscriptionCounter := 0, bump }
  return ⟨s, []⟩

def requestRandomness (withCallback : Bool) (x : Surroundings) (i : Instruction) (s : Accounts) :
    Outcome Effect := do
  let requester ← key i 0
  let configKey ← key i 1
  let config ← load .legacyConfig s configKey
  let requestId := config.requestCounter
  let (a, bump) ← expect (← key i 2) (.request .legacy requestId) i.program
  let callbackProgram ← if withCallback then key i 4 else .ok Address.zero
  let seed ← argument (Codec.block 32) i 8
  let s ← create .legacyRequest s a
    { requestId, requester, seed, requestSlot := x.slot, callbackProgram, status := .pending
      randomness := Block.zero 32, fulfilledSlot := 0, bump }
  let requestCounter ← next64 config.requestCounter
  return ⟨store .legacyConfig s configKey { config with requestCounter },
    [.event (.randomnessRequested { requestId, requester, seed, requestSlot := x.slot })]⟩

def fulfillRandomness (x : Surroundings) (i : Instruction) (s : Accounts) : Outcome Effect := do
  let config ← load .legacyConfig s (← key i 1)
  let requestId ← argument Codec.u64 i 8
  let randomness ← argument (Codec.block 32) i 16
  requireProof x config.authority requestId randomness
  let requestKey ← key i 2
  let request ← load .legacyRequest s requestKey
  require (request.status = .pending) .requestNotPending
  return ⟨store .legacyRequest s requestKey
      { request with status := .fulfilled, randomness, fulfilledSlot := x.slot },
    [.event (.randomnessFulfilled { requestId, randomness })]⟩

def consumeRandomness (i : Instruction) (s : Accounts) : Outcome Effect := do
  let requestKey ← key i 1
  let request ← load .legacyRequest s requestKey
  require (request.requester = (← key i 0)) .unauthorized
  require (request.status = .fulfilled) .requestNotFulfilled
  return ⟨store .legacyRequest s requestKey { request with status := .consumed }, []⟩

/-- Anyone may close a consumed request. -/
def closeRequest (i : Instruction) (s : Accounts) : Outcome Effect := do
  let requestKey ← key i 1
  let request ← load .legacyRequest s requestKey
  require (request.status = .consumed) .requestNotConsumed
  return ⟨s.erase requestKey, []⟩

def createSubscription (i : Instruction) (s : Accounts) : Outcome Effect := do
  let configKey ← key i 1
  let config ← load .coordinatorConfig s configKey
  let id := config.subscriptionCounter
  let (a, bump) ← expect (← key i 2) (.subscription id) i.program
  let s ← create .subscription s a
    { id, owner := ← key i 0, balance := 0, reqCount := 0, consumerCount := 0, bump }
  let subscriptionCounter ← next64 config.subscriptionCounter
  return ⟨store .coordinatorConfig s configKey { config with subscriptionCounter }, []⟩

def fundSubscription (i : Instruction) (s : Accounts) : Outcome Effect := do
  let subscriptionKey ← key i 1
  let sub ← load .subscription s subscriptionKey
  let amount ← argument Codec.u64 i 16
  require (sub.balance.toNat + amount.toNat < UInt64.size) .balanceOverflow
  return ⟨store .subscription s subscriptionKey { sub with balance := sub.balance + amount }, []⟩

def addConsumer (i : Instruction) (s : Accounts) : Outcome Effect := do
  let subscriptionKey ← key i 1
  let sub ← load .subscription s subscriptionKey
  require (sub.owner = (← key i 0)) .unauthorized
  let consumer ← key i 2
  let (a, bump) ← expect (← key i 3) (.consumer sub.id consumer) i.program
  let s ← create .consumerRegistration s a
    { subscriptionId := sub.id, programId := consumer, nonce := 0, bump }
  let consumerCount ← next32 sub.consumerCount
  return ⟨store .subscription s subscriptionKey { sub with consumerCount }, []⟩

def removeConsumer (i : Instruction) (s : Accounts) : Outcome Effect := do
  let subscriptionKey ← key i 1
  let sub ← load .subscription s subscriptionKey
  require (sub.owner = (← key i 0)) .unauthorized
  let registrationKey ← key i 3
  let _ ← load .consumerRegistration s registrationKey
  let consumerCount ← previous32 sub.consumerCount
  return ⟨store .subscription (s.erase registrationKey) subscriptionKey { sub with consumerCount }, []⟩

def cancelSubscription (i : Instruction) (s : Accounts) : Outcome Effect := do
  let subscriptionKey ← key i 1
  let sub ← load .subscription s subscriptionKey
  require (sub.owner = (← key i 0)) .unauthorized
  require (sub.consumerCount = 0) .subscriptionHasConsumers
  return ⟨s.erase subscriptionKey, []⟩

/-- Bit `j` says that the account at position `j` is writable. -/
def writableBitmap (metas : List AccountMeta) : UInt8 :=
  UInt8.ofNat (metas.foldr (fun m n => (if m.isWritable then 1 else 0) + 2 * n) 0)

/-- The keys, filled up with the zero key. -/
def callbackSlots (metas : List AccountMeta) : Vector Address 4 :=
  Vector.ofFn fun j => match metas[j.val]? with
    | some m => m.key
    | none => Address.zero

/-- The accounts behind the seven fixed ones. -/
def callbackMetas (i : Instruction) : Outcome (List AccountMeta) := behind i.accounts 7

/-- Puts accounts into the slots from position `j` on, and sets the bits of the writable ones. -/
def placeFrom (j : Nat) (slots : Vector Address 4) (bitmap : UInt8) :
    List AccountMeta → Outcome (Vector Address 4 × UInt8)
  | [] => .ok (slots, bitmap)
  | m :: ms =>
    if h : j < 4 then
      placeFrom (j + 1) (slots.set j m.key) (if m.isWritable then bitmap ||| 1 <<< UInt8.ofNat j else bitmap) ms
    else crash .pastEnd

def requestRandomWords (x : Surroundings) (i : Instruction) (s : Accounts) : Outcome Effect := do
  let requester ← key i 0
  let configKey ← key i 1
  let config ← load .coordinatorConfig s configKey
  let subscriptionKey ← key i 2
  let sub ← load .subscription s subscriptionKey
  let registration ← load .consumerRegistration s (← key i 3)
  let consumerProgram ← key i 4
  require (registration.programId = consumerProgram) .consumerNotRegistered
  let numWords ← argument Codec.u32 i 8
  let seed ← argument (Codec.block 32) i 12
  let callbackComputeLimit ← argument Codec.u32 i 44
  require (numWords ≠ 0 ∧ numWords ≤ config.maxNumWords) .invalidNumWords
  let fee ← match config.feeFor? numWords with
    | some fee => .ok fee
    | none => crash .arithmetic
  require (fee ≤ sub.balance) .insufficientBalance
  let requestId := config.requestCounter
  let (a, bump) ← expect (← key i 5) (.request .subscription requestId) i.program
  let metas ← callbackMetas i
  require (metas.length ≤ maxCallbackAccounts) .tooManyCallbackAccounts
  let (callbackAccounts, callbackWritableBitmap) ← placeFrom 0 (Vector.replicate 4 Address.zero) 0 metas
  let s ← create .wordsRequest s a
    { requestId, subscriptionId := sub.id, consumerProgram, requester, numWords, seed
      requestSlot := x.slot, callbackComputeLimit, status := .pending, randomness := Block.zero 32
      fulfilledSlot := 0, numCallbackAccounts := UInt8.ofNat metas.length, callbackAccounts
      callbackWritableBitmap, bump }
  let balance ← minus64 sub.balance fee
  let reqCount ← next64 sub.reqCount
  let requestCounter ← next64 config.requestCounter
  let s := store .coordinatorConfig s configKey { config with requestCounter }
  let s := store .subscription s subscriptionKey { sub with balance, reqCount }
  return ⟨s, [.event (.randomWordsRequested
    { requestId, subscriptionId := sub.id, consumerProgram, requester, numWords, seed
      requestSlot := x.slot, callbackComputeLimit })]⟩

/-- Delivers the words to the consumer's callback and removes the request. -/
def fulfillRandomWords (x : Surroundings) (i : Instruction) (s : Accounts) : Outcome Effect := do
  let config ← load .coordinatorConfig s (← key i 1)
  let requestId ← argument Codec.u64 i 8
  let randomness ← argument (Codec.block 32) i 16
  requireProof x config.authority requestId randomness
  let requestKey ← key i 2
  let request ← load .wordsRequest s requestKey
  require (request.status = .pending) .requestNotPending
  let consumerProgram := request.consumerProgram
  return ⟨s.erase requestKey, [.invoke consumerProgram 2, .success consumerProgram,
    .event (.randomWordsFulfilled { requestId, randomness, consumerProgram })]⟩

/-- Five accounts tell the legacy initialization from the other one. -/
def dispatch (d : Discriminator) (x : Surroundings) (i : Instruction) (s : Accounts) : Outcome Effect :=
  if d = Discriminator.Instruction.initializeConfig then
    if i.accounts.length = 5 then initializeLegacy i s else initializeSubscription i s
  else if d = Discriminator.Instruction.requestRandomness then requestRandomness false x i s
  else if d = Discriminator.Instruction.requestRandomnessWithCallback then requestRandomness true x i s
  else if d = Discriminator.Instruction.fulfillRandomness then fulfillRandomness x i s
  else if d = Discriminator.Instruction.consumeRandomness then consumeRandomness i s
  else if d = Discriminator.Instruction.closeRequest then closeRequest i s
  else if d = Discriminator.Instruction.createSubscription then createSubscription i s
  else if d = Discriminator.Instruction.fundSubscription then fundSubscription i s
  else if d = Discriminator.Instruction.addConsumer then addConsumer i s
  else if d = Discriminator.Instruction.removeConsumer then removeConsumer i s
  else if d = Discriminator.Instruction.cancelSubscription then cancelSubscription i s
  else if d = Discriminator.Instruction.requestRandomWords then requestRandomWords x i s
  else if d = Discriminator.Instruction.fulfillRandomWords then fulfillRandomWords x i s
  else refuse (.unsupported d)

/-- The first account that has to sign and does not. -/
def unsigned? (x : Surroundings) (i : Instruction) : Option Address :=
  (i.accounts.find? fun m => m.isSigner && !x.signers.contains m.key).map AccountMeta.key

/-- Executes one instruction. Instructions that carry signatures do nothing by themselves. -/
def execute (x : Surroundings) (i : Instruction) (s : Accounts) : Outcome Effect :=
  if i.program = Instruction.signatureProgram then .ok ⟨s, []⟩
  else match unsigned? x i with
    | some a => refuse (.missingSignature a)
    | none => match i.data.slice? 0 8 with
      | none => refuse .missingDiscriminator
      | some d => dispatch d x i s

end

end Coordinator

end Randomness
