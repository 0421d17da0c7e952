import Randomness.Client
import Randomness.Settings.KeyFile

/-!
An operator's settings, read from named variables and a key file.
-/

namespace Randomness

structure Settings where
  rpcUrl : String
  /-- Where the index of compressed requests is, if it is to be searched. -/
  indexUrl : Option String
  /-- Pays for and signs requests. -/
  requester : Secret
  program : Address
  generation : Generation
  subscriptionId : Option UInt64
  consumerProgram : Option Address
  /-- Only legacy requests name it themselves. -/
  callbackProgram : Option Address
  numWords : UInt32
  callbackComputeLimit : UInt32
  /-- In milliseconds. -/
  pollInterval : UInt64
  waitTimeout : UInt64
  cluster : String
  /-- A request to watch instead of making a new one. -/
  requestId : Option UInt64

/-- Why a variable's value is not understood. -/
inductive ValueFault where
  | address (f : Address.Fault)
  | number (f : Numeral.Fault)
  deriving DecidableEq

def ValueFault.message : ValueFault → String
  | address f => f.message
  | number f => f.message

inductive SettingsError where
  | keyFile (path : String) (f : KeyFile.Fault)
  | missing (name : String)
  /-- Missing, but only required under the subscription generation. -/
  | missingForSubscriptions (name : String)
  /-- No name of a generation; `text` is the form that was compared. -/
  | generation (text : String)
  | value (name text : String) (f : ValueFault)
  deriving DecidableEq

namespace SettingsError

def message : SettingsError → String
  | keyFile path _ => "failed to read keypair from " ++ path
  | missing v => v ++ " env var must be set"
  | missingForSubscriptions v => v ++ " env var must be set for the subscription generation"
  | generation _ => "invalid PROTOCOL_GENERATION"
  | value v text _ => "invalid " ++ v ++ ": " ++ text

def cause? : SettingsError → Option String
  | keyFile _ f => some f.message
  | missing _ | missingForSubscriptions _ => none
  | generation text => some (Generation.refusal text)
  | value _ _ f => some f.message

/-- The message and what caused it. -/
def chain (e : SettingsError) : List String := e.message :: e.cause?.toList

end SettingsError

namespace Settings

/-- The value of a variable, if it is set. -/
abbrev Variables := String → Option String

/-- A `~` at the start of a path stands for the home directory. -/
def expandHome (home path : String) : String :=
  match path.toList with
  | ['~'] => home
  | '~' :: '/' :: rest => home ++ "/" ++ String.ofList rest
  | _ => path

/-- A number below `size`. -/
def readNumber (size : Nat) (text : String) : Except Numeral.Fault Nat :=
  Numeral.read (size - 1) text.toList

/-- A value that may be missing but not malformed. -/
def optional (vars : Variables) (v : String) (parse : String → Except ValueFault α) :
    Except SettingsError (Option α) :=
  match vars v with
  | none => .ok none
  | some text => ((parse text).mapError (.value v text)).map some

def optionalNumber (vars : Variables) (v : String) : Except SettingsError (Option UInt64) :=
  optional vars v fun text => ((readNumber UInt64.size text).mapError .number).map UInt64.ofNat

def optionalAddress (vars : Variables) (v : String) : Except SettingsError (Option Address) :=
  optional vars v fun text => (Address.parse text).mapError .address

/-- A number that falls back to a default where it is missing or malformed. -/
def numberOr (vars : Variables) (v : String) (size default : Nat) : Nat :=
  match (vars v).map (readNumber size) with
  | some (.ok n) => n
  | _ => default

def requiredAddress (vars : Variables) (v : String) : Except SettingsError Address :=
  match vars v with
  | none => .error (.missing v)
  | some text => (Address.parse text).mapError fun f => .value v text (.address f)

def load [Crypto] (vars : Variables) (files : FileTree) (home : String) : Except SettingsError Settings := do
  let rpcUrl := (vars "RPC_URL").getD "http://127.0.0.1:8899"
  let indexUrl := (vars "PHOTON_URL").filter (· ≠ "")
  let path := expandHome home ((vars "REQUESTER_KEYPAIR_PATH").getD "~/.config/solana/id.json")
  let requester ← (KeyFile.read files path).mapError (.keyFile path)
  let program ← requiredAddress vars "PROGRAM_ID"
  let generation ← match vars "PROTOCOL_GENERATION" with
    | none => .ok .subscription
    | some text => (Generation.parse text).mapError .generation
  let subscriptionId ← optionalNumber vars "SUBSCRIPTION_ID"
  let consumerProgram ← optionalAddress vars "CONSUMER_PROGRAM_ID"
  let callbackProgram ← optionalAddress vars "CALLBACK_PROGRAM_ID"
  if generation = .subscription then
    if subscriptionId.isNone then throw (.missingForSubscriptions "SUBSCRIPTION_ID")
    if consumerProgram.isNone then throw (.missingForSubscriptions "CONSUMER_PROGRAM_ID")
  let requestId ← optionalNumber vars "REQUEST_ID"
  return {
    rpcUrl, indexUrl, requester, program, generation, subscriptionId, consumerProgram, callbackProgram
    numWords := UInt32.ofNat (numberOr vars "NUM_WORDS" UInt32.size 1)
    callbackComputeLimit := UInt32.ofNat (numberOr vars "CALLBACK_COMPUTE_LIMIT" UInt32.size 200000)
    pollInterval := UInt64.ofNat (numberOr vars "POLL_INTERVAL_MS" UInt64.size 500)
    waitTimeout := UInt64.ofNat (numberOr vars "WAIT_TIMEOUT_MS" UInt64.size 60000)
    cluster := (vars "CLUSTER").getD "devnet"
    requestId }

/-- What to request against, once subscription and consumer are known. -/
def binding? (s : Settings) : Option Binding := do
  return {
    subscriptionId := ← s.subscriptionId
    consumerProgram := ← s.consumerProgram
    callbackComputeLimit := s.callbackComputeLimit
    callbackAccounts := [] }

/-- The page that shows a transaction. -/
def explorerUrl (s : Settings) (signature : String) : String :=
  let page := "https://solscan.io/tx/" ++ signature
  if s.cluster = "mainnet-beta" then page else page ++ "?cluster=" ++ s.cluster

end Settings

end Randomness
