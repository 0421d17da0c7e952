import Randomness.Codec
import Randomness.Discriminator
import Randomness.Text.Base64

/-!
Events, and the log lines that carry them: a fixed start, then the event's bytes in base 64.
-/

namespace Randomness

structure RandomnessRequested where
  requestId : UInt64
  requester : Address
  seed : Block 32
  requestSlot : UInt64
  deriving DecidableEq

structure RandomWordsRequested where
  requestId : UInt64
  subscriptionId : UInt64
  consumerProgram : Address
  requester : Address
  numWords : UInt32
  seed : Block 32
  requestSlot : UInt64
  callbackComputeLimit : UInt32
  deriving DecidableEq

structure RandomnessFulfilled where
  requestId : UInt64
  randomness : Block 32
  deriving DecidableEq

structure RandomWordsFulfilled where
  requestId : UInt64
  randomness : Block 32
  consumerProgram : Address
  deriving DecidableEq

inductive Event where
  | randomnessRequested (e : RandomnessRequested)
  | compressedRandomnessRequested (e : RandomnessRequested)
  | randomWordsRequested (e : RandomWordsRequested)
  | randomnessFulfilled (e : RandomnessFulfilled)
  | randomWordsFulfilled (e : RandomWordsFulfilled)
  deriving DecidableEq

namespace RandomnessRequested

def codec : Codec (UInt64 × Address × Block 32 × UInt64) :=
  Codec.u64.pair <| Codec.address.pair <| (Codec.block 32).pair Codec.u64

def fields (e : RandomnessRequested) : UInt64 × Address × Block 32 × UInt64 :=
  (e.requestId, e.requester, e.seed, e.requestSlot)

def ofFields : UInt64 × Address × Block 32 × UInt64 → RandomnessRequested
  | (requestId, requester, seed, requestSlot) => { requestId, requester, seed, requestSlot }

end RandomnessRequested

namespace RandomWordsRequested

abbrev Fields := UInt64 × UInt64 × Address × Address × UInt32 × Block 32 × UInt64 × UInt32

def codec : Codec Fields :=
  Codec.u64.pair <| Codec.u64.pair <| Codec.address.pair <| Codec.address.pair <| Codec.u32.pair <|
    (Codec.block 32).pair <| Codec.u64.pair Codec.u32

def fields (e : RandomWordsRequested) : Fields :=
  (e.requestId, e.subscriptionId, e.consumerProgram, e.requester, e.numWords, e.seed, e.requestSlot,
    e.callbackComputeLimit)

def ofFields : Fields → RandomWordsRequested
  | (requestId, subscriptionId, consumerProgram, requester, numWords, seed, requestSlot,
      callbackComputeLimit) =>
    { requestId, subscriptionId, consumerProgram, requester, numWords, seed, requestSlot
      callbackComputeLimit }

end RandomWordsRequested

namespace RandomnessFulfilled

def codec : Codec (UInt64 × Block 32) := Codec.u64.pair (Codec.block 32)

def fields (e : RandomnessFulfilled) : UInt64 × Block 32 := (e.requestId, e.randomness)

def ofFields : UInt64 × Block 32 → RandomnessFulfilled
  | (requestId, randomness) => { requestId, randomness }

end RandomnessFulfilled

namespace RandomWordsFulfilled

def codec : Codec (UInt64 × Block 32 × Address) := Codec.u64.pair <| (Codec.block 32).pair Codec.address

def fields (e : RandomWordsFulfilled) : UInt64 × Block 32 × Address :=
  (e.requestId, e.randomness, e.consumerProgram)

def ofFields : UInt64 × Block 32 × Address → RandomWordsFulfilled
  | (requestId, randomness, consumerProgram) => { requestId, randomness, consumerProgram }

end RandomWordsFulfilled

namespace Event

def requestId : Event → UInt64
  | randomnessRequested e | compressedRandomnessRequested e => e.requestId
  | randomWordsRequested e => e.requestId
  | randomnessFulfilled e => e.requestId
  | randomWordsFulfilled e => e.requestId

def encode : Event → Bytes
  | randomnessRequested e =>
    Discriminator.Event.randomnessRequested.bytes ++ RandomnessRequested.codec.encode e.fields
  | compressedRandomnessRequested e =>
    Discriminator.Event.compressedRandomnessRequested.bytes ++ RandomnessRequested.codec.encode e.fields
  | randomWordsRequested e =>
    Discriminator.Event.randomWordsRequested.bytes ++ RandomWordsRequested.codec.encode e.fields
  | randomnessFulfilled e =>
    Discriminator.Event.randomnessFulfilled.bytes ++ RandomnessFulfilled.codec.encode e.fields
  | randomWordsFulfilled e =>
    Discriminator.Event.randomWordsFulfilled.bytes ++ RandomWordsFulfilled.codec.encode e.fields

/-- The event at the start of `data`; what follows it does not matter. -/
def decode? (data : Bytes) : Option Event := do
  let d ← data.slice? 0 8
  if d = Discriminator.Event.randomnessRequested then
    (RandomnessRequested.codec.readAt? data 8).map fun r => randomnessRequested (.ofFields r)
  else if d = Discriminator.Event.compressedRandomnessRequested then
    (RandomnessRequested.codec.readAt? data 8).map fun r => compressedRandomnessRequested (.ofFields r)
  else if d = Discriminator.Event.randomWordsRequested then
    (RandomWordsRequested.codec.readAt? data 8).map fun r => randomWordsRequested (.ofFields r)
  else if d = Discriminator.Event.randomnessFulfilled then
    (RandomnessFulfilled.codec.readAt? data 8).map fun r => randomnessFulfilled (.ofFields r)
  else if d = Discriminator.Event.randomWordsFulfilled then
    (RandomWordsFulfilled.codec.readAt? data 8).map fun r => randomWordsFulfilled (.ofFields r)
  else none

/-- The start of a log line that carries an event. -/
def linePrefix : String := "Program data: "

/-- The log line of any bytes. -/
def dataLine (data : Bytes) : String := linePrefix ++ Base64.encode data

def logLine (e : Event) : String := dataLine e.encode

/-- The event that a log line carries; blanks around its base 64 do not matter. -/
def ofLogLine? (line : String) : Option Event := do
  let text ← Text.afterPrefix? linePrefix.toList line.toList
  match Base64.decode (Text.utf8 (Text.trim text)) with
  | .ok data => decode? data
  | .error _ => none

def ofLog (lines : List String) : List Event := lines.filterMap ofLogLine?

end Event

end Randomness
