import Randomness.Instruction.Compressed
import Randomness.Instruction.Legacy
import Randomness.Instruction.Proof
import Randomness.Instruction.Subscription
import Randomness.Proofs.Site

/-!
Operations: the instructions that can be made, by what they are made from.
-/

namespace Randomness

/-- What a coordinator is told. -/
inductive Command where
  | initializeLegacy (admin authority treasury : Address) (fee : UInt64)
  | requestRandomness (requester treasury : Address) (callback : Option Address) (id : UInt64) (seed : Bytes)
  | fulfillRandomness (authority : Address) (id : UInt64) (randomness : Block 32)
  | consumeRandomness (requester : Address) (id : UInt64)
  | closeRequest (requester : Address) (id : UInt64)
  | updateLegacy (admin : Address) (update : Legacy.ConfigUpdate)
  | initializeSubscription (admin authority : Address) (feePerWord : UInt64) (maxNumWords : UInt32)
  | createSubscription (owner : Address) (id : UInt64)
  | fundSubscription (funder : Address) (id amount : UInt64)
  | addConsumer (owner : Address) (id : UInt64) (consumer : Address)
  | removeConsumer (owner : Address) (id : UInt64) (consumer : Address)
  | cancelSubscription (owner : Address) (id : UInt64)
  | requestRandomWords (requester : Address) (order : Subscriptions.WordsOrder)
  | fulfillRandomWords (authority : Address) (stored : WordsRequest) (randomness : Block 32)
  | updateSubscription (admin : Address) (update : Subscriptions.ConfigUpdate)
  | requestCompressed (requester treasury : Address) (order : Compressed.RequestOrder)
  | fulfillCompressed (authority : Address) (order : Compressed.FulfillOrder)

namespace Command

/-- Who has to sign. -/
def signer : Command → Address
  | initializeLegacy admin _ _ _ => admin
  | requestRandomness requester _ _ _ _ => requester
  | fulfillRandomness authority _ _ => authority
  | consumeRandomness requester _ => requester
  | closeRequest requester _ => requester
  | updateLegacy admin _ => admin
  | initializeSubscription admin _ _ _ => admin
  | createSubscription owner _ => owner
  | fundSubscription funder _ _ => funder
  | addConsumer owner _ _ => owner
  | removeConsumer owner _ _ => owner
  | cancelSubscription owner _ => owner
  | requestRandomWords requester _ => requester
  | fulfillRandomWords authority _ _ => authority
  | updateSubscription admin _ => admin
  | requestCompressed requester _ _ => requester
  | fulfillCompressed authority _ => authority

/-- The consumer that a command names, if it names one. -/
def consumer? : Command → Option Address
  | addConsumer _ _ consumer => some consumer
  | removeConsumer _ _ consumer => some consumer
  | requestRandomWords _ order => some order.consumerProgram
  | _ => none

/-- The instruction that tells it to the coordinator at `program`. -/
def instruction [Crypto] (program : Address) : Command → Except BuildError Instruction
  | initializeLegacy admin authority treasury fee =>
    Legacy.initializeConfig program admin authority treasury fee
  | requestRandomness requester treasury none id seed =>
    Legacy.requestRandomness program requester treasury id seed
  | requestRandomness requester treasury (some callback) id seed =>
    Legacy.requestRandomnessWithCallback program requester treasury callback id seed
  | fulfillRandomness authority id randomness => Legacy.fulfillRandomness program authority id randomness
  | consumeRandomness requester id => Legacy.consumeRandomness program requester id
  | closeRequest requester id => Legacy.closeRequest program requester id
  | updateLegacy admin update => Legacy.updateConfig program admin update
  | initializeSubscription admin authority feePerWord maxNumWords =>
    Subscriptions.initializeConfig program admin authority feePerWord maxNumWords
  | createSubscription owner id => Subscriptions.createSubscription program owner id
  | fundSubscription funder id amount => Subscriptions.fundSubscription program funder id amount
  | addConsumer owner id consumer => Subscriptions.addConsumer program owner id consumer
  | removeConsumer owner id consumer => Subscriptions.removeConsumer program owner id consumer
  | cancelSubscription owner id => Subscriptions.cancelSubscription program owner id
  | requestRandomWords requester order => Subscriptions.requestRandomWords program requester order
  | fulfillRandomWords authority stored randomness =>
    Subscriptions.fulfillRandomWords program authority stored randomness
  | updateSubscription admin update => Subscriptions.updateConfig program admin update
  | requestCompressed requester treasury order =>
    Compressed.requestRandomness program requester treasury order
  | fulfillCompressed authority order => Compressed.fulfillRandomness program authority order

end Command

/-- An instruction by what it is made from. -/
inductive Operation where
  | command (program : Address) (c : Command)
  /-- A signature beside the commands. -/
  | signature (secret : Secret) (message : Bytes)

namespace Operation

def instruction [Crypto] : Operation → Except BuildError Instruction
  | command program c => c.instruction program
  | signature secret message => .ok (Proof.instruction secret message)

/-- The program that an operation's instruction is for. -/
def program : Operation → Address
  | command P _ => P
  | signature _ _ => Instruction.signatureProgram

/-- The program and consumer that an operation names are among `keys`. -/
def Over (keys : Set Address) : Operation → Prop
  | command program c => program ∈ keys ∧ ∀ consumer ∈ c.consumer?, consumer ∈ keys
  | signature _ _ => True

/-- The signature's program is told nothing. -/
def Proper : Operation → Prop
  | command program _ => program ≠ Instruction.signatureProgram
  | signature _ _ => True

end Operation

/-- Operations that are submitted as one transaction. -/
structure Submission where
  operations : List Operation
  signers : List Address

namespace Submission

def instructions [Crypto] (t : Submission) : Except BuildError (List Instruction) :=
  t.operations.mapM Operation.instruction

def Over (keys : Set Address) (t : Submission) : Prop := ∀ o ∈ t.operations, o.Over keys

end Submission

/-! What is known of an instruction that could be made. -/

@[simp] theorem ok_bind (a : α) (f : α → Except ε β) : (Except.ok a >>= f) = f a := rfl

@[simp] theorem bind_eq_ok {x : Except ε α} {f : α → Except ε β} {b : β} :
    (x >>= f) = .ok b ↔ ∃ a, x = .ok a ∧ f a = .ok b := by
  cases x <;> simp only [bind, Except.bind, reduceCtorEq, Except.ok.injEq, false_and, exists_false,
    exists_eq_left']

@[simp] theorem pure_eq_ok {a b : α} : (pure a : Except ε α) = .ok b ↔ a = b :=
  ⟨Except.ok.inj, congrArg Except.ok⟩

/-- What follows without fail adds no error. -/
theorem bind_eq_error_of_total {x : Except ε α} {f : α → Except ε β} (total : ∀ a, ∃ b, f a = .ok b) {e : ε} :
    (x >>= f) = .error e ↔ x = .error e := by
  cases x with
  | error e' => simp only [bind, Except.bind, Except.error.injEq]
  | ok a =>
    obtain ⟨b, ends⟩ := total a
    simp only [ok_bind, ends, reduceCtorEq]

theorem toOption_eq_some {x : Except ε α} {a : α} : x.toOption = some a ↔ x = .ok a := by
  cases x <;> simp [Except.toOption]

theorem map_eq_ok {x : Except ε α} {f : α → β} {b : β} : x.map f = .ok b ↔ ∃ a, x = .ok a ∧ f a = b := by
  cases x <;> simp [Except.map]

namespace Instruction

theorem addressOf_eq_ok [Crypto] {program a : Address} {p : Place} :
    addressOf program p = .ok a ↔ ∃ b, Site.address ⟨program, p⟩ = .ok (a, b) := by
  unfold addressOf Site.address
  cases p.address program with
  | error e => simp
  | ok found => simp [Prod.ext_iff]

theorem outOfRange_eq_ok {p : Prop} [Decidable p] {name : String} {value min max : Nat}
    {f : α → Except BuildError β} {x : Except BuildError β} {b : β} :
    (if p then outOfRange name value min max >>= f else x) = .ok b ↔ ¬ p ∧ x = .ok b := by
  by_cases h : p
  · simp [h, outOfRange]
  · simp [h]

theorem seedOf_eq_ok {bs : Bytes} {f : ArgumentError → BuildError} {seed : Block 32} :
    (seedOf bs).mapError f = .ok seed ↔ bs = seed.bytes := by
  rw [← Block.ofBytes?_eq_some_iff]
  unfold seedOf
  cases Block.ofBytes? 32 bs with
  | none => simp [Except.mapError]
  | some b => simp [Except.mapError]

end Instruction

theorem Command.program_of_instruction [Crypto] {P : Address} {c : Command} {i : Instruction}
    (hi : c.instruction P = .ok i) : i.program = P := by
  cases c with
  | requestRandomness requester treasury callback id seed =>
    cases callback <;>
    · simp only [instruction, Legacy.requestRandomness, Legacy.requestRandomnessWithCallback, bind_eq_ok,
        pure_eq_ok] at hi
      grind
  | _ =>
    simp only [instruction, Legacy.initializeConfig, Legacy.fulfillRandomness, Legacy.consumeRandomness,
      Legacy.closeRequest, Legacy.updateConfig, Subscriptions.initializeConfig,
      Subscriptions.createSubscription, Subscriptions.fundSubscription, Subscriptions.addConsumer,
      Subscriptions.removeConsumer, Subscriptions.cancelSubscription, Subscriptions.requestRandomWords,
      Subscriptions.fulfillRandomWords, Subscriptions.updateConfig, Compressed.requestRandomness,
      Compressed.fulfillRandomness, bind_eq_ok, Instruction.outOfRange_eq_ok, pure_eq_ok] at hi
    grind

theorem Submission.instructions_cons_eq_ok [Crypto] {o : Operation} {os : List Operation}
    {is : List Instruction} :
    (o :: os).mapM Operation.instruction = .ok is ↔
      ∃ j js, o.instruction = .ok j ∧ os.mapM Operation.instruction = .ok js ∧ is = j :: js := by
  simp only [List.mapM_cons, bind_eq_ok, pure_eq_ok]
  constructor
  · intro held
    obtain ⟨j, hj, js, hjs, rfl⟩ := held
    exact ⟨j, js, hj, hjs, rfl⟩
  · intro held
    obtain ⟨j, js, hj, hjs, rfl⟩ := held
    exact ⟨j, hj, js, hjs, rfl⟩

theorem Operation.program_of_instruction [Crypto] {o : Operation} {i : Instruction}
    (hi : o.instruction = .ok i) : i.program = o.program := by
  cases o with
  | command P c => exact Command.program_of_instruction hi
  | signature secret message =>
    cases hi
    rfl

end Randomness
