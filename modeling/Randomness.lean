import Randomness.Account
import Randomness.Account.Generations
import Randomness.Account.Layout
import Randomness.Address
import Randomness.Bytes
import Randomness.Bytes.LittleEndian
import Randomness.Client
import Randomness.Client.Error
import Randomness.Client.Wait
import Randomness.Codec
import Randomness.Codec.Field
import Randomness.Coordinator
import Randomness.Crypto
import Randomness.Derivation
import Randomness.Dialogue
import Randomness.Discriminator
import Randomness.Document
import Randomness.Document.Parser
import Randomness.Ed25519
import Randomness.Event
import Randomness.Generation
import Randomness.Hash
import Randomness.Http
import Randomness.Http.Reason
import Randomness.Index
import Randomness.Index.Remote
import Randomness.Instruction
import Randomness.Instruction.Compressed
import Randomness.Instruction.Legacy
import Randomness.Instruction.Proof
import Randomness.Instruction.Subscription
import Randomness.Ledger
import Randomness.Ledger.Accounts
import Randomness.Ledger.Authority
import Randomness.Ledger.Error
import Randomness.Ledger.TransactionError
import Randomness.Node
import Randomness.Node.Remote
import Randomness.Proofs.Operation
import Randomness.Proofs.RoundTrip
import Randomness.Proofs.Site
import Randomness.Settings
import Randomness.Settings.KeyFile
import Randomness.Simulation.Indexing
import Randomness.Simulation.Session
import Randomness.Simulation.World
import Randomness.Text
import Randomness.Text.Base58
import Randomness.Text.Base64
import Randomness.Text.Duration
import Randomness.Text.Hex
import Randomness.Text.Numeral
import Randomness.Words
import Randomness.Proofs.Registry
import Randomness.Proofs.Matching
import Randomness.Proofs.Execution
import Randomness.Proofs.Refinement
import Randomness.Proofs.Transition
import Randomness.Proofs.Lifecycle
import Randomness.Proofs.Frame
import Randomness.Proofs.History
import Randomness.Proofs.Chronicle
import Randomness.Proofs.Armor
import Randomness.Proofs.EventLog
import Randomness.Proofs.Backing
import Randomness.Proofs.Annals
import Randomness.Proofs.Call
import Randomness.Proofs.Calm
import Randomness.Proofs.Sending
import Randomness.Proofs.Arena
import Randomness.Proofs.Proceedings
import Randomness.Proofs.Race
import Randomness.Proofs.Preflight
import Randomness.Proofs.Decoding
import Randomness.Proofs.Kinds
import Randomness.Proofs.Booking
import Randomness.Proofs.Accounting
import Randomness.Proofs.Ownership
import Randomness.Proofs.Finalization
import Randomness.Proofs.Finalizing
import Randomness.Proofs.Attestation
import Randomness.Proofs.Consent
import Randomness.Proofs.Trail
import Randomness.Proofs.Handle
import Randomness.Proofs.Polling
import Randomness.Proofs.Waiting
import Randomness.Proofs.Timeline
import Randomness.Proofs.Canonical
import Randomness.Proofs.Emission
import Randomness.Proofs.Callbacks
import Randomness.Proofs.Spelling
import Randomness.Proofs.Documents
import Randomness.Proofs.Entries
import Randomness.Proofs.Replies
import Randomness.Proofs.Scanning
import Randomness.Proofs.Footprint
import Randomness.Proofs.Preimages
import Randomness.Proofs.Pending
import Randomness.Proofs.Deadline
import Randomness.Proofs.Transcript
import Randomness.Proofs.Retrying
import Randomness.Proofs.Staleness
import Randomness.Proofs.Solo
import Randomness.Proofs.Resuming
import Randomness.Proofs.Requesting
import Randomness.Proofs.Paging
import Randomness.Proofs.Shapes
import Randomness.Proofs.Format
import Randomness.Proofs.Payloads
import Randomness.Proofs.Header
import Randomness.Proofs.Guards
import Randomness.Proofs.Fields
import Randomness.Proofs.Bump
import Randomness.Proofs.Crashes
import Randomness.Proofs.Overruns
