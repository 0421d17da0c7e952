import Randomness.Instruction

/-!
Instructions of the legacy generation.
-/

namespace Randomness.Legacy

open Instruction AccountMeta

variable [Crypto]

def config (program : Address) : Except BuildError Address := addressOf program (.config .legacy)

def request (program : Address) (id : UInt64) : Except BuildError Address :=
  addressOf program (.request .legacy id)

/-- Creates the configuration. -/
def initializeConfig (program admin authority treasury : Address) (fee : UInt64) :
    Except BuildError Instruction := do
  requireNonZero "authority" authority
  return {
    program
    accounts := [writableSigner admin, readonly authority, readonly treasury, writable (← config program),
      readonly systemProgram]
    data := Discriminator.Instruction.initializeConfig.bytes ++ Codec.u64.encode fee }

/-- Requests randomness. The id has to be the configuration's counter when the instruction runs. -/
def requestRandomness (program requester treasury : Address) (id : UInt64) (seed : Bytes) :
    Except BuildError Instruction := do
  let seed ← (seedOf seed).mapError .argument
  return {
    program
    accounts := [writableSigner requester, writable (← config program), writable (← request program id),
      writable treasury, readonly systemProgram]
    data := Discriminator.Instruction.requestRandomness.bytes ++ seed.bytes }

/-- The same with a program that the request names for its callback. -/
def requestRandomnessWithCallback (program requester treasury callback : Address) (id : UInt64)
    (seed : Bytes) : Except BuildError Instruction := do
  let seed ← (seedOf seed).mapError .argument
  requireNonZero "callback_program" callback
  return {
    program
    accounts := [writableSigner requester, writable (← config program), writable (← request program id),
      writable treasury, readonly callback, readonly systemProgram]
    data := Discriminator.Instruction.requestRandomnessWithCallback.bytes ++ seed.bytes }

/-- Fulfills a request. The transaction also needs the authority's signature over id and
randomness. -/
def fulfillRandomness (program authority : Address) (id : UInt64) (randomness : Block 32) :
    Except BuildError Instruction := do
  return {
    program
    accounts := [writableSigner authority, readonly (← config program), writable (← request program id),
      readonly instructionsAccount]
    data := Discriminator.Instruction.fulfillRandomness.bytes ++
      (Codec.u64.pair (Codec.block 32)).encode (id, randomness) }

def consumeRandomness (program requester : Address) (id : UInt64) : Except BuildError Instruction := do
  return {
    program
    accounts := [readonlySigner requester, writable (← request program id)]
    data := Discriminator.Instruction.consumeRandomness.bytes ++ Codec.u64.encode id }

def closeRequest (program requester : Address) (id : UInt64) : Except BuildError Instruction := do
  return {
    program
    accounts := [writableSigner requester, writable (← request program id)]
    data := Discriminator.Instruction.closeRequest.bytes ++ Codec.u64.encode id }

/-- What an update changes; absent fields stay. -/
structure ConfigUpdate where
  authority : Option Address
  fee : Option UInt64
  treasury : Option Address
  admin : Option Address
  deriving DecidableEq

def updateConfig (program admin : Address) (update : ConfigUpdate) : Except BuildError Instruction := do
  requireOptional "authority" update.authority
  requireOptional "admin" update.admin
  return {
    program
    accounts := [readonlySigner admin, writable (← config program)]
    data := Discriminator.Instruction.updateConfig.bytes ++
      Codec.address.encodeOption update.authority ++ Codec.u64.encodeOption update.fee ++
      Codec.address.encodeOption update.treasury ++ Codec.address.encodeOption update.admin }

end Randomness.Legacy
