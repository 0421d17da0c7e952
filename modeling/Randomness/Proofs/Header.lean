import Randomness.Proofs.Attestation
import Randomness.Proofs.Calm
import Randomness.Proofs.EventLog

/-!
The two readers of a signature's instruction. Its data begin with a header that says where the key, the signature and
the message stand; the coordinator looks at fixed places instead. Both find the same three.
-/

namespace Randomness

/-- A stretch of a byte string. -/
structure Span where
  start : Nat
  length : Nat

namespace Span

def stop (s : Span) : Nat := s.start + s.length

def cut (s : Span) (bs : Bytes) : Bytes := (bs.drop s.start).take s.length

def Has (s : Span) (i : Nat) : Prop := s.start ≤ i ∧ i < s.stop

/-- No position is in both. -/
def Apart (s t : Span) : Prop := s.stop ≤ t.start ∨ t.stop ≤ s.start

theorem cut_append {s : Span} {front middle rest : Bytes} (start : front.length = s.start)
    (length : middle.length = s.length) : s.cut (front ++ (middle ++ rest)) = middle := by
  rw [cut, ← start, ← length, List.drop_left, List.take_left]

theorem cut_last {s : Span} {front last : Bytes} (start : front.length = s.start) (length : last.length = s.length) :
    s.cut (front ++ last) = last := by
  rw [cut, ← start, ← length, List.drop_left, List.take_length]

end Span

theorem LittleEndian.encode_mod_size (w n : Nat) : encode w (n % size w) = encode w n := by
  have back := encode_decode (encode w n)
  rwa [length_encode, decode_encode] at back

namespace Proof

/-- What the data of a signature's instruction say of themselves. An instruction index names the instruction of the
transaction that a place is in; the largest index names the instruction itself. -/
structure Header where
  count : UInt8
  padding : UInt8
  signatureOffset : UInt16
  signatureInstruction : UInt16
  keyOffset : UInt16
  keyInstruction : UInt16
  messageOffset : UInt16
  messageLength : UInt16
  messageInstruction : UInt16

namespace Header

def codec : Codec (UInt8 × UInt8 × UInt16 × UInt16 × UInt16 × UInt16 × UInt16 × UInt16 × UInt16) :=
  Codec.u8.pair <| Codec.u8.pair <| Codec.u16.pair <| Codec.u16.pair <| Codec.u16.pair <| Codec.u16.pair <|
    Codec.u16.pair <| Codec.u16.pair Codec.u16

def read? (data : Bytes) : Option Header :=
  (codec.readAt? data 0).map fun (count, padding, signatureOffset, signatureInstruction, keyOffset, keyInstruction,
      messageOffset, messageLength, messageInstruction) =>
    { count, padding, signatureOffset, signatureInstruction, keyOffset, keyInstruction, messageOffset, messageLength,
      messageInstruction }

def own : Span := ⟨0, codec.width⟩

def key (h : Header) : Span := ⟨h.keyOffset.toNat, 32⟩

def signature (h : Header) : Span := ⟨h.signatureOffset.toNat, 64⟩

def message (h : Header) : Span := ⟨h.messageOffset.toNat, h.messageLength.toNat⟩

def spans (h : Header) : List Span := [own, h.key, h.signature, h.message]

/-- A header of one signature, whose places cut the data without overlap or gap into the header itself, the key, the
signature and the message. -/
structure Delimits (h : Header) (data : Bytes) (key : Address) (signature : Signature) (message : Bytes) : Prop where
  single : h.count = 1
  here : h.keyInstruction = 65535 ∧ h.signatureInstruction = 65535 ∧ h.messageInstruction = 65535
  key : h.key.cut data = key.bytes
  signature : h.signature.cut data = signature.bytes
  message : h.message.cut data = message
  apart : h.spans.Pairwise Span.Apart
  covers : ∀ i, i < data.length ↔ ∃ s ∈ h.spans, s.Has i

/-- The header in front of a key, a signature and a message. -/
def made (messageLength : UInt16) : Header where
  count := 1
  padding := 0
  signatureOffset := 48
  signatureInstruction := 65535
  keyOffset := 16
  keyInstruction := 65535
  messageOffset := 112
  messageLength := messageLength
  messageInstruction := 65535

theorem header_eq (n : Nat) :
    header n = codec.encode (1, 0, 48, 65535, 16, 65535, 112, UInt16.ofNat n, 65535) := by
  -- The bytes of a length are taken modulo `2 ^ 16`, as the number is that they are read as.
  have length : Codec.u16.encode (UInt16.ofNat n) = LittleEndian.encode 2 n := by
    rw [← LittleEndian.encode_mod_size]
    exact congrArg (LittleEndian.encode 2) UInt16.toNat_ofNat'
  simp only [codec, Codec.encode_pair, length]
  rfl

theorem spans_made (n : UInt16) : (made n).spans = [⟨0, 16⟩, ⟨16, 32⟩, ⟨48, 64⟩, ⟨112, n.toNat⟩] := rfl

theorem made_delimits (front : Block 16) {key : Address} {signature : Signature} {m : Bytes} {n : UInt16}
    (length : m.length = n.toNat) :
    (made n).Delimits (front.bytes ++ (key.bytes ++ (signature.bytes ++ m))) key signature m where
  single := rfl
  here := ⟨rfl, rfl, rfl⟩
  key := Span.cut_append front.length_eq key.length_eq
  signature := by
    rw [← List.append_assoc, ← Block.append_bytes]
    exact Span.cut_append (front.append key).length_eq signature.length_eq
  message := by
    rw [← List.append_assoc, ← Block.append_bytes, ← List.append_assoc, ← Block.append_bytes]
    exact Span.cut_last ((front.append key).append signature).length_eq length
  apart := by
    rw [spans_made]
    simp [Span.Apart, Span.stop]
  covers i := by
    have whole : (front.bytes ++ (key.bytes ++ (signature.bytes ++ m))).length = 112 + n.toNat := by
      simp only [List.length_append, Block.length_eq, length]
      omega
    simp only [whole, spans_made, Span.Has, Span.stop, List.mem_cons, List.not_mem_nil, or_false, exists_eq_or_imp,
      exists_eq_left]
    omega

variable [Crypto] (secret : Secret) (m : Bytes)

theorem read?_instruction : read? (instruction secret m).data = some (made (UInt16.ofNat m.length)) := by
  have front : codec.readAt? (instruction secret m).data 0 =
      some (1, 0, 48, 65535, 16, 65535, 112, UInt16.ofNat m.length, 65535) := by
    simp only [instruction, header_eq, List.append_assoc]
    exact Codec.readAt?_append codec _ ⟨[], rfl⟩ _
  rw [read?, front]
  rfl

/-- The length of a message has two bytes. A header delimits a message if its length is small enough for that, and cuts
others short. -/
theorem delimits_iff : (made (UInt16.ofNat m.length)).Delimits (instruction secret m).data (Crypto.publicKey secret)
    (Crypto.sign secret m) m ↔ m.length < 65536 := by
  constructor
  · intro delimits
    have cut := congrArg List.length delimits.message
    rw [Span.cut, List.length_take] at cut
    have most : (made (UInt16.ofNat m.length)).message.length < 65536 := (UInt16.ofNat m.length).toNat_lt
    omega
  · intro short
    rw [instruction_data, List.append_assoc]
    exact made_delimits ⟨header m.length, rfl⟩ (UInt16.toNat_ofNat_of_lt short).symm

end Header

end Proof

section

variable [Crypto] {authority : Address} {id : UInt64} {randomness : Block 32}

/-- Beside instructions for other programs, a proof is what the one instruction proves. -/
theorem Coordinator.requireProof_eq_ok_iff {x : Surroundings} {i : Instruction}
    (only : x.instructions.filter (fun j => j.program = Instruction.signatureProgram) = [i]) :
    requireProof x authority id randomness = .ok () ↔ proves authority id randomness i = true := by
  rw [requireProof_eq, require_eq_ok, List.any_eq_true]
  constructor
  · rintro ⟨j, hj, proved⟩
    -- What proves anything is for the signature's program, and so is the only such instruction.
    have told := (Instruction.attests_of_proves proved).program
    have mem : j ∈ x.instructions.filter fun j => j.program = Instruction.signatureProgram :=
      List.mem_filter.2 ⟨hj, decide_eq_true told⟩
    rw [only, List.mem_singleton] at mem
    rwa [← mem]
  · intro proved
    have mem : i ∈ x.instructions.filter fun j => j.program = Instruction.signatureProgram := by
      rw [only]
      exact List.mem_singleton_self i
    exact ⟨i, (List.mem_filter.1 mem).1, proved⟩

theorem Coordinator.proves_instruction_iff {secret : Secret} {m : Bytes}
    (valid : Crypto.verify (Crypto.publicKey secret) m (Crypto.sign secret m) = true) :
    proves authority id randomness (Proof.instruction secret m) = true ↔
      authority = Crypto.publicKey secret ∧ m = (Proof.message id randomness).bytes := by
  rw [proves_signature, Operation.attests]
  simp only [Bool.and_eq_true, decide_eq_true_eq]
  constructor
  · rintro ⟨⟨rfl, rfl⟩, _⟩
    exact ⟨rfl, rfl⟩
  · rintro ⟨rfl, same⟩
    exact ⟨⟨rfl, same⟩, valid⟩

/-- The header of a signature's instruction selects the key, the signature and the message among its data, if the
message is not too long for its length to be written. And the coordinator finds the same three without the header: the
instruction proves what its message spells, for the key of its secret. -/
theorem Proof.delimits_and_proves (secret : Secret) (m : Bytes) :
    (∃ h, Header.read? (instruction secret m).data = some h ∧
      (h.Delimits (instruction secret m).data (Crypto.publicKey secret) (Crypto.sign secret m) m ↔
        m.length < 65536)) ∧
    (Crypto.verify (Crypto.publicKey secret) m (Crypto.sign secret m) = true →
      ∀ x : Surroundings,
        x.instructions.filter (fun i => i.program = Instruction.signatureProgram) = [instruction secret m] →
        ∀ authority id randomness, Coordinator.requireProof x authority id randomness = .ok () ↔
          authority = Crypto.publicKey secret ∧ m = LittleEndian.encode 8 id.toNat ++ randomness.bytes) := by
  refine ⟨⟨_, Header.read?_instruction secret m, Header.delimits_iff secret m⟩, ?_⟩
  intro valid x only authority id randomness
  rw [Coordinator.requireProof_eq_ok_iff only, Coordinator.proves_instruction_iff valid]
  rfl

end

namespace Recorded

/-- The instruction beside an answer proves it, and proves no answer to another request. -/
theorem answer_delimited :
    let _ := crypto
    let m := (Proof.message 0 answer).bytes
    let i := Proof.instruction secret m
    (∃ h, Proof.Header.read? i.data = some h ∧
      h.Delimits i.data (Crypto.publicKey secret) (Crypto.sign secret m) m) ∧
    Coordinator.requireProof ⟨0, [i], []⟩ (Crypto.publicKey secret) 0 answer = .ok () ∧
    Coordinator.requireProof ⟨0, [i], []⟩ (Crypto.publicKey secret) 1 answer ≠ .ok () := by
  intro _ m i
  have valid : Crypto.verify (Crypto.publicKey secret) m (Crypto.sign secret m) = true := by decide +kernel
  obtain ⟨⟨h, read, delimits⟩, proves⟩ := Proof.delimits_and_proves secret m
  have proved := proves valid ⟨0, [i], []⟩ rfl (Crypto.publicKey secret)
  refine ⟨⟨h, read, delimits.2 (by decide)⟩, (proved 0 answer).2 ⟨rfl, rfl⟩, ?_⟩
  intro other
  exact absurd ((proved 1 answer).1 other).2 (by decide)

end Recorded

end Randomness
