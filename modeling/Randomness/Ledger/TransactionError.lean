import Randomness.Document

/-!
Why a node does not execute a transaction, and the words for it.
-/

namespace Randomness

/-- The client tells one cause from all others: the transaction names a blockhash that the node does
not know. -/
inductive TransactionError where
  | blockhashNotFound
  | other (text : String)
  deriving DecidableEq

namespace TransactionError

def message : TransactionError → String
  | blockhashNotFound => "Blockhash not found"
  | other text => text

/-- Causes without further data, by name. -/
def texts : List (String × String) := [
  ("AccountInUse", "Account in use"),
  ("AccountLoadedTwice", "Account loaded twice"),
  ("AccountNotFound", "Attempt to debit an account but found no record of a prior credit."),
  ("ProgramAccountNotFound", "Attempt to load a program that does not exist"),
  ("InsufficientFundsForFee", "Insufficient funds for fee"),
  ("InvalidAccountForFee", "This account may not be used to pay transaction fees"),
  ("AlreadyProcessed", "This transaction has already been processed"),
  ("CallChainTooDeep", "Loader call chain is too deep"),
  ("MissingSignatureForFee", "Transaction requires a fee but has no signature present"),
  ("InvalidAccountIndex", "Transaction contains an invalid account reference"),
  ("SignatureFailure", "Transaction did not pass signature verification"),
  ("InvalidProgramForExecution", "This program may not be used for executing instructions"),
  ("SanitizeFailure", "Transaction failed to sanitize accounts offsets correctly"),
  ("ClusterMaintenance", "Transactions are currently disabled due to cluster maintenance"),
  ("AccountBorrowOutstanding",
    "Transaction processing left an account with an outstanding borrowed reference"),
  ("WouldExceedMaxBlockCostLimit", "Transaction would exceed max Block Cost Limit"),
  ("UnsupportedVersion", "Transaction version is unsupported"),
  ("InvalidWritableAccount", "Transaction loads a writable account that cannot be written"),
  ("WouldExceedMaxAccountCostLimit", "Transaction would exceed max account limit within the block"),
  ("WouldExceedAccountDataBlockLimit", "Transaction would exceed account data limit within the block"),
  ("TooManyAccountLocks", "Transaction locked too many accounts"),
  ("AddressLookupTableNotFound", "Transaction loads an address table account that doesn't exist"),
  ("InvalidAddressLookupTableOwner",
    "Transaction loads an address table account with an invalid owner"),
  ("InvalidAddressLookupTableData", "Transaction loads an address table account with invalid data"),
  ("InvalidAddressLookupTableIndex", "Transaction address table lookup uses an invalid index"),
  ("InvalidRentPayingAccount",
    "Transaction leaves an account with a lower balance than rent-exempt minimum"),
  ("WouldExceedMaxVoteCostLimit", "Transaction would exceed max Vote Cost Limit"),
  ("WouldExceedAccountDataTotalLimit", "Transaction would exceed total account data limit"),
  ("MaxLoadedAccountsDataSizeExceeded",
    "Transaction exceeded max loaded accounts data size cap"),
  ("InvalidLoadedAccountsDataSizeLimit",
    "LoadedAccountsDataSizeLimit set for transaction must be greater than 0."),
  ("ResanitizationNeeded", "ResanitizationNeeded"),
  ("UnbalancedTransaction", "Sum of account balances before and after transaction do not match"),
  ("ProgramCacheHitMaxLimit", "Program cache hit max limit"),
  ("CommitCancelled", "CommitCancelled")]

/-- Causes that lie in one instruction, by name. -/
def instructionTexts : List (String × String) := [
  ("GenericError", "generic instruction error"),
  ("InvalidArgument", "invalid program argument"),
  ("InvalidInstructionData", "invalid instruction data"),
  ("InvalidAccountData", "invalid account data for instruction"),
  ("AccountDataTooSmall", "account data too small for instruction"),
  ("InsufficientFunds", "insufficient funds for instruction"),
  ("IncorrectProgramId", "incorrect program id for instruction"),
  ("MissingRequiredSignature", "missing required signature for instruction"),
  ("AccountAlreadyInitialized", "instruction requires an uninitialized account"),
  ("UninitializedAccount", "instruction requires an initialized account"),
  ("UnbalancedInstruction", "sum of account balances before and after instruction do not match"),
  ("ModifiedProgramId", "instruction illegally modified the program id of an account"),
  ("ExternalAccountLamportSpend", "instruction spent from the balance of an account it does not own"),
  ("ExternalAccountDataModified", "instruction modified data of an account it does not own"),
  ("ReadonlyLamportChange", "instruction changed the balance of a read-only account"),
  ("ReadonlyDataModified", "instruction modified data of a read-only account"),
  ("DuplicateAccountIndex", "instruction contains duplicate accounts"),
  ("ExecutableModified", "instruction changed executable bit of an account"),
  ("RentEpochModified", "instruction modified rent epoch of an account"),
  ("NotEnoughAccountKeys", "insufficient account keys for instruction"),
  ("AccountDataSizeChanged",
    "program other than the account's owner changed the size of the account data"),
  ("AccountNotExecutable", "instruction expected an executable account"),
  ("AccountBorrowFailed",
    "instruction tries to borrow reference for an account which is already borrowed"),
  ("AccountBorrowOutstanding", "instruction left account with an outstanding borrowed reference"),
  ("DuplicateAccountOutOfSync", "instruction modifications of multiply-passed account differ"),
  ("InvalidError", "program returned invalid error code"),
  ("ExecutableDataModified", "instruction changed executable accounts data"),
  ("ExecutableLamportChange", "instruction changed the balance of an executable account"),
  ("ExecutableAccountNotRentExempt", "executable accounts must be rent exempt"),
  ("UnsupportedProgramId", "Unsupported program id"),
  ("CallDepth", "Cross-program invocation call depth too deep"),
  ("MissingAccount", "An account required by the instruction is missing"),
  ("ReentrancyNotAllowed",
    "Cross-program invocation reentrancy not allowed for this instruction"),
  ("MaxSeedLengthExceeded", "Length of the seed is too long for address generation"),
  ("InvalidSeeds", "Provided seeds do not result in a valid address"),
  ("InvalidRealloc", "Failed to reallocate account data"),
  ("ComputationalBudgetExceeded", "Computational budget exceeded"),
  ("PrivilegeEscalation",
    "Cross-program invocation with unauthorized signer or writable account"),
  ("ProgramEnvironmentSetupFailure", "Failed to create program execution environment"),
  ("ProgramFailedToComplete", "Program failed to complete"),
  ("ProgramFailedToCompile", "Program failed to compile"),
  ("Immutable", "Account is immutable"),
  ("IncorrectAuthority", "Incorrect authority provided"),
  ("BorshIoError", "Failed to serialize or deserialize account data"),
  ("AccountNotRentExempt", "An account does not have enough lamports to be rent-exempt"),
  ("InvalidAccountOwner", "Invalid account owner"),
  ("ArithmeticOverflow", "Program arithmetic overflowed"),
  ("UnsupportedSysvar", "Unsupported sysvar"),
  ("IllegalOwner", "Provided owner is not allowed"),
  ("MaxAccountsDataAllocationsExceeded",
    "Accounts data allocations exceeded the maximum allowed per transaction"),
  ("MaxAccountsExceeded", "Max accounts exceeded"),
  ("MaxInstructionTraceLengthExceeded", "Max instruction trace length exceeded"),
  ("BuiltinProgramsMustConsumeComputeUnits", "Builtin programs must consume compute units")]

/-- A name with the data that belong to it. A name alone has none. -/
def named? : Document → Option (String × Document)
  | .string (some name) => some (name, .null)
  | .object [(some name, d)] => some (name, d)
  | _ => none

/-- The number of a program's own error, in hexadecimal. -/
def customText (n : Nat) : String := "custom program error: 0x" ++ String.ofList (Nat.toDigits 16 n)

def instructionText? (d : Document) : Option String := do
  match ← named? d with
  | ("Custom", n) => return customText (← n.nat? UInt32.size)
  | (name, .null) => instructionTexts.lookup name
  | _ => none

/-- The number of an account, in a record or alone in an array. -/
def accountIndex? (d : Document) : Option Nat := do
  Document.required (Document.nat? UInt8.size) ((← d.record? ["account_index"]) "account_index")

def read? (d : Document) : Option TransactionError := do
  match ← named? d with
  | ("BlockhashNotFound", .null) => return blockhashNotFound
  | ("InstructionError", .array [n, e]) =>
    return other ("Error processing Instruction " ++ toString (← n.nat? UInt8.size) ++ ": " ++ (← instructionText? e))
  | ("DuplicateInstruction", n) =>
    return other ("Transaction contains a duplicate instruction (" ++ toString (← n.nat? UInt8.size) ++
      ") that is not allowed")
  | ("InsufficientFundsForRent", r) =>
    return other ("Transaction results in an account (" ++ toString (← accountIndex? r) ++
      ") with insufficient funds for rent")
  | ("ProgramExecutionTemporarilyRestricted", r) =>
    return other ("Execution of the program referenced by account at index " ++
      toString (← accountIndex? r) ++ " is temporarily restricted.")
  | (name, .null) => (texts.lookup name).map other
  | _ => none

end TransactionError

end Randomness
