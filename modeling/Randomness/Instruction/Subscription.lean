import Randomness.Instruction

/-!
Instructions of the subscription generation.
-/

namespace Randomness.Subscriptions

open Instruction AccountMeta

variable [Crypto]

def config (program : Address) : Except BuildError Address := addressOf program (.config .subscription)

def subscription (program : Address) (id : UInt64) : Except BuildError Address :=
  addressOf program (.subscription id)

def registration (program : Address) (id : UInt64) (consumer : Address) : Except BuildError Address :=
  addressOf program (.consumer id consumer)

def request (program : Address) (id : UInt64) : Except BuildError Address :=
  addressOf program (.request .subscription id)

def maxU32 : Nat := UInt32.size - 1

/-- Creates the configuration. -/
def initializeConfig (program admin authority : Address) (feePerWord : UInt64) (maxNumWords : UInt32) :
    Except BuildError Instruction := do
  requireNonZero "authority" authority
  if maxNumWords = 0 then
    outOfRange "max_num_words" 0 1 maxU32
  return {
    program
    accounts := [writableSigner admin, readonly authority, writable (← config program),
      readonly systemProgram]
    data := Discriminator.Instruction.initializeConfig.bytes ++
      (Codec.u64.pair Codec.u32).encode (feePerWord, maxNumWords) }

/-- Creates a subscription. The id has to be the configuration's counter when the instruction runs. -/
def createSubscription (program owner : Address) (id : UInt64) : Except BuildError Instruction := do
  return {
    program
    accounts := [writableSigner owner, writable (← config program), writable (← subscription program id),
      readonly systemProgram]
    data := Discriminator.Instruction.createSubscription.bytes }

/-- Pays into a subscription, whoever owns it. -/
def fundSubscription (program funder : Address) (id amount : UInt64) : Except BuildError Instruction := do
  return {
    program
    accounts := [writableSigner funder, writable (← subscription program id), readonly systemProgram]
    data := Discriminator.Instruction.fundSubscription.bytes ++
      (Codec.u64.pair Codec.u64).encode (id, amount) }

def addConsumer (program owner : Address) (id : UInt64) (consumer : Address) :
    Except BuildError Instruction := do
  requireNonZero "consumer_program" consumer
  return {
    program
    accounts := [writableSigner owner, writable (← subscription program id), readonly consumer,
      writable (← registration program id consumer), readonly systemProgram]
    data := Discriminator.Instruction.addConsumer.bytes ++ Codec.u64.encode id }

def removeConsumer (program owner : Address) (id : UInt64) (consumer : Address) :
    Except BuildError Instruction := do
  requireNonZero "consumer_program" consumer
  return {
    program
    accounts := [writableSigner owner, writable (← subscription program id), readonly consumer,
      writable (← registration program id consumer)]
    data := Discriminator.Instruction.removeConsumer.bytes ++ Codec.u64.encode id }

/-- Closes a subscription that has no consumers. -/
def cancelSubscription (program owner : Address) (id : UInt64) : Except BuildError Instruction := do
  return {
    program
    accounts := [writableSigner owner, writable (← subscription program id)]
    data := Discriminator.Instruction.cancelSubscription.bytes ++ Codec.u64.encode id }

structure WordsOrder where
  /-- The configuration's counter as last read. -/
  requestId : UInt64
  subscriptionId : UInt64
  consumerProgram : Address
  numWords : UInt32
  seed : Block 32
  callbackComputeLimit : UInt32
  callbackAccounts : List AccountMeta

def requestRandomWords (program requester : Address) (order : WordsOrder) :
    Except BuildError Instruction := do
  requireNonZero "consumer_program" order.consumerProgram
  if order.numWords = 0 then
    outOfRange "num_words" 0 1 maxU32
  if order.callbackAccounts.length > maxCallbackAccounts then
    outOfRange "callback_accounts" order.callbackAccounts.length 0 maxCallbackAccounts
  return {
    program
    accounts := [writableSigner requester, writable (← config program),
      writable (← subscription program order.subscriptionId),
      readonly (← registration program order.subscriptionId order.consumerProgram),
      readonly order.consumerProgram, writable (← request program order.requestId),
      readonly systemProgram] ++ order.callbackAccounts.map fun m => ⟨m.key, false, m.isWritable⟩
    data := Discriminator.Instruction.requestRandomWords.bytes ++
      (Codec.u32.pair <| (Codec.block 32).pair Codec.u32).encode
        (order.numWords, order.seed, order.callbackComputeLimit) }

/-- Fulfills a stored request, with its callback accounts behind the fixed ones. The transaction also
needs the authority's signature over id and randomness. -/
def fulfillRandomWords (program authority : Address) (stored : WordsRequest) (randomness : Block 32) :
    Except BuildError Instruction := do
  return {
    program
    accounts := [writableSigner authority, readonly (← config program),
      writable (← request program stored.requestId), writable stored.requester,
      readonly stored.consumerProgram, readonly instructionsAccount] ++ stored.callbackMetas
    data := Discriminator.Instruction.fulfillRandomWords.bytes ++
      (Codec.u64.pair (Codec.block 32)).encode (stored.requestId, randomness) }

/-- What an update changes; absent fields stay. -/
structure ConfigUpdate where
  authority : Option Address
  feePerWord : Option UInt64
  maxNumWords : Option UInt32
  admin : Option Address
  deriving DecidableEq

def updateConfig (program admin : Address) (update : ConfigUpdate) : Except BuildError Instruction := do
  requireOptional "authority" update.authority
  requireOptional "admin" update.admin
  if update.maxNumWords = some 0 then
    outOfRange "max_num_words" 0 1 maxU32
  return {
    program
    accounts := [readonlySigner admin, writable (← config program)]
    data := Discriminator.Instruction.updateConfig.bytes ++
      Codec.address.encodeOption update.authority ++ Codec.u64.encodeOption update.feePerWord ++
      Codec.u32.encodeOption update.maxNumWords ++ Codec.address.encodeOption update.admin }

end Randomness.Subscriptions
