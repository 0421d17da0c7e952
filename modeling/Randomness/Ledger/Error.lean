import Randomness.Http
import Randomness.Instruction
import Randomness.Ledger.TransactionError

/-!
What goes wrong between the client and a ledger, an indexer or a node.
-/

namespace Randomness

/-- What a node found when it tried a transaction before passing it on. -/
structure Preflight where
  error : Option TransactionError
  logs : List String
  deriving DecidableEq

/-- How a call to a node fails. -/
inductive NodeError where
  /-- The exchange with the node at this address failed. -/
  | transport (url : String) (fault : Http.Fault)
  /-- The node answered with an error object. -/
  | response (code : Int) (message : String) (preflight : Option Preflight)
  /-- The node answered with an error object that is not of the agreed form. -/
  | malformedError
  /-- A result that is not of the expected form. -/
  | malformedResult
  /-- A text in a result that should be the written form of something. -/
  | expected (what : String)
  /-- A request that cannot be made good. -/
  | request (text : String)
  /-- A failure explained in words. -/
  | explained (text : String)
  /-- The transaction was executed and failed. -/
  | transaction (e : TransactionError)
  deriving DecidableEq

inductive LedgerError where
  | node (e : NodeError)
  | http (fault : Http.Fault)
  | indexer (code : Int) (message : String)
  | custom (text : String)
  deriving DecidableEq

/-- The log of a tried transaction; nothing if there is none. What was wrong is not told. -/
def Preflight.text (p : Preflight) : String :=
  if p.logs.isEmpty then ""
  else toString p.logs.length ++ " log messages:\n" ++
    String.join (p.logs.map fun line => "  " ++ line ++ "\n")

namespace NodeError

def message : NodeError → String
  | transport url fault => fault.explanation url
  | response code message preflight =>
    "RPC response error " ++ toString code ++ ": " ++ message ++ "; " ++
      ((preflight.map Preflight.text).getD "")
  | malformedError => "RPC request error: Failed to deserialize RPC error response"
  | malformedResult => "malformed result"
  | expected what => "parse error: expected " ++ what
  | request text => "RPC request error: " ++ text
  | explained text => text
  | transaction e => e.message

end NodeError

namespace LedgerError

def message : LedgerError → String
  | node e => "ClientError: " ++ e.message
  | http fault => fault.message
  | indexer code message => "indexer error " ++ toString code ++ ": " ++ message
  | custom text => "Error: `" ++ text ++ "`"

end LedgerError

end Randomness
