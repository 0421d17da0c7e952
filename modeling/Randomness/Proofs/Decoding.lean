import Randomness.Proofs.RoundTrip

/-!
What reading an account says of any bytes: which fault is reported first, and where none is, that the
record has exactly the bytes that were read.
-/

namespace Randomness

namespace Codec

/-- The byte at a place of the encoding, as it is found in the value. -/
def ByteAt (c : Codec α) (i : Nat) (byte : α → UInt8) : Prop := ∀ a, (c.encode a)[i]? = some (byte a)

theorem ByteAt.first (c : Codec β) : (u8.pair c).ByteAt 0 Prod.fst := by
  intro ab
  have byte : u8.encode ab.1 = [ab.1] := by
    change [UInt8.ofNat ab.1.toNat] = [ab.1]
    rw [UInt8.ofNat_toNat]
  rw [encode_pair, byte]
  rfl

/-- The bytes of the second part of a pair come after those of the first one. -/
theorem ByteAt.behind {d : Codec β} {i : Nat} {byte : β → UInt8} (h : d.ByteAt i byte) (c : Codec α) :
    (c.pair d).ByteAt (c.width + i) fun ab => byte ab.2 := by
  intro ab
  have reach : (c.encode ab.1).length ≤ c.width + i := by rw [length_encode]; exact Nat.le_add_right ..
  rw [encode_pair, List.getElem?_append_right reach, length_encode, Nat.add_sub_cancel_left, h]

end Codec

namespace Kind

/-- The place of the status in an account's data. -/
def statusOffset? : Kind → Option Nat
  | legacyRequest => some 120
  | wordsRequest => some 136
  | compressedRequest => some 88
  | _ => none

/-- The largest status that a kind of account can have. -/
def maxStatus : Kind → Nat
  | legacyRequest => 2
  | _ => 1

/-- The place of the number of callback accounts. -/
def countOffset? : Kind → Option Nat
  | wordsRequest => some 177
  | _ => none

/-- The status is none that the kind can have. -/
def BadStatus (k : Kind) (data : Bytes) (code : UInt8) : Prop :=
  ∃ i, k.statusOffset? = some i ∧ data[i]? = some code ∧ k.maxStatus < code.toNat

/-- There are more callback accounts than the kind can have. -/
def BadCount (k : Kind) (data : Bytes) (count : UInt8) : Prop :=
  ∃ i, k.countOffset? = some i ∧ data[i]? = some count ∧ maxCallbackAccounts < count.toNat

/-- The first thing that is wrong with an account's data. -/
inductive Fault (k : Kind) (data : Bytes) : DecodeError → Prop
  | tooShort (short : data.length < k.size) : Fault k data (.tooShort k k.size data.length)
  | wrongDiscriminator {found : Discriminator} (long : k.size ≤ data.length) (front : data.take 8 = found.bytes)
      (other : found ≠ k.discriminator) : Fault k data (.wrongDiscriminator k k.discriminator found)
  | invalidStatus {code : UInt8} (long : k.size ≤ data.length) (front : data.take 8 = k.discriminator.bytes)
      (bad : k.BadStatus data code) : Fault k data (.invalidStatus k code)
  | invalidCallbackCount {count : UInt8} (long : k.size ≤ data.length)
      (front : data.take 8 = k.discriminator.bytes) (status : ∀ code, ¬ k.BadStatus data code)
      (bad : k.BadCount data count) : Fault k data (.invalidCallbackCount k count maxCallbackAccounts)

theorem readStatus_eq_error_iff {k : Kind} {code : UInt8} {e : DecodeError} :
    Layout.readStatus k code = .error e ↔ k.maxStatus < code.toNat ∧ e = .invalidStatus k code := by
  have least : 1 ≤ k.maxStatus := by cases k <;> decide
  by_cases zero : code = 0
  · subst zero
    simp [Layout.readStatus, RequestStatus.ofCode?]
  by_cases one : code = 1
  · subst one
    simp only [Layout.readStatus, RequestStatus.ofCode?, UInt8.toNat_one, if_true, reduceCtorEq, false_iff,
      if_neg zero]
    omega
  by_cases two : code = 2
  · subst two
    cases k <;> simp [Layout.readStatus, RequestStatus.ofCode?, maxStatus, eq_comm]
  · have above : k.maxStatus < code.toNat := by
      have most : k.maxStatus ≤ 2 := by cases k <;> decide
      have h0 : code.toNat ≠ 0 := fun h => zero (UInt8.toNat_inj.1 h)
      have h1 : code.toNat ≠ 1 := fun h => one (UInt8.toNat_inj.1 h)
      have h2 : code.toNat ≠ 2 := fun h => two (UInt8.toNat_inj.1 h)
      omega
    simp [Layout.readStatus, RequestStatus.ofCode?, zero, one, two, above, eq_comm]

theorem code_of_readStatus {k : Kind} {code : UInt8} {s : RequestStatus}
    (h : Layout.readStatus k code = .ok s) : s.code = code := by
  simp only [Layout.readStatus, RequestStatus.ofCode?] at h
  grind [RequestStatus.code]

/-- A record is read from its fields only if they are its own. -/
theorem fields_of_ofFields {k : Kind} {f : k.layout.Fields} {r : k.Record} (h : k.layout.ofFields f = .ok r) :
    k.layout.fields r = f := by
  cases k with
  | legacyConfig | coordinatorConfig | subscription | consumerRegistration =>
    cases h
    rfl
  | legacyRequest =>
    obtain ⟨requestId, requester, seed, requestSlot, callbackProgram, code, _⟩ := f
    change (Layout.readStatus .legacyRequest code).map _ = _ at h
    cases read : Layout.readStatus .legacyRequest code with
    | error e =>
      rw [read] at h
      cases h
    | ok status =>
      rw [read] at h
      cases h
      simp only [layout, Layout.legacyRequest, code_of_readStatus read]
  | wordsRequest =>
    obtain ⟨requestId, subscriptionId, consumerProgram, requester, numWords, seed, requestSlot, limit, code,
      randomness, fulfilledSlot, count, _⟩ := f
    change (Layout.readStatus .wordsRequest code >>= _) = _ at h
    cases read : Layout.readStatus .wordsRequest code with
    | error e =>
      rw [read] at h
      cases h
    | ok status =>
      rw [read] at h
      simp only [bind, Except.bind] at h
      split at h
      · cases h
      · cases h
        simp only [layout, Layout.wordsRequest, code_of_readStatus read]
        rfl
  | compressedRequest =>
    obtain ⟨requestId, requester, seed, requestSlot, code, randomness⟩ := f
    change (Layout.readStatus .compressedRequest code).map _ = _ at h
    cases read : Layout.readStatus .compressedRequest code with
    | error e =>
      rw [read] at h
      cases h
    | ok status =>
      rw [read] at h
      cases h
      simp only [layout, Layout.compressedRequest, code_of_readStatus read]

/-- Data that starts with a record's bytes: its fields, before any check. -/
structure Holds (k : Kind) (data : Bytes) (f : k.layout.Fields) : Prop where
  front : data.take k.size = k.discriminator.bytes ++ k.layout.codec.encode f

theorem Holds.getElem? {k : Kind} {data : Bytes} {f : k.layout.Fields} (h : k.Holds data f) {i : Nat}
    (inside : i < k.bodySize) : data[8 + i]? = (k.layout.codec.encode f)[i]? := by
  have size : 8 + i < k.size := Nat.add_lt_add_left inside 8
  have disc : k.discriminator.bytes.length = 8 := k.discriminator.length_eq
  rw [← List.getElem?_take_of_lt size, h.front, List.getElem?_append_right (by omega), disc,
    Nat.add_sub_cancel_left]

open Codec in
theorem legacyRequest_status : Layout.legacyRequest.codec.ByteAt 112 fun f => f.2.2.2.2.2.1 :=
  (ByteAt.first _).behind address |>.behind u64 |>.behind (block 32) |>.behind address |>.behind u64

open Codec in
theorem wordsRequest_status : Layout.wordsRequest.codec.ByteAt 128 fun f => f.2.2.2.2.2.2.2.2.1 :=
  (ByteAt.first _).behind u32 |>.behind u64 |>.behind (block 32) |>.behind u32 |>.behind address |>.behind
    address |>.behind u64 |>.behind u64

open Codec in
theorem wordsRequest_count : Layout.wordsRequest.codec.ByteAt 169 fun f => f.2.2.2.2.2.2.2.2.2.2.2.1 :=
  (ByteAt.first _).behind u64 |>.behind (block 32) |>.behind u8 |>.behind u32 |>.behind u64 |>.behind
    (block 32) |>.behind u32 |>.behind address |>.behind address |>.behind u64 |>.behind u64

open Codec in
theorem compressedRequest_status : Layout.compressedRequest.codec.ByteAt 80 fun f => f.2.2.2.2.1 :=
  (ByteAt.first _).behind u64 |>.behind (block 32) |>.behind address |>.behind u64

section

variable {k : Kind} {data : Bytes} {f : k.layout.Fields} {i : Nat} {byte : k.layout.Fields → UInt8}

theorem Holds.badStatus_iff (h : k.Holds data f) (place : k.statusOffset? = some (8 + i))
    (inside : i < k.bodySize) (found : k.layout.codec.ByteAt i byte) {code : UInt8} :
    k.BadStatus data code ↔ byte f = code ∧ k.maxStatus < code.toNat := by
  simp only [BadStatus, place, Option.some.injEq, exists_eq_left', h.getElem? inside, found f]

theorem Holds.badCount_iff (h : k.Holds data f) (place : k.countOffset? = some (8 + i))
    (inside : i < k.bodySize) (found : k.layout.codec.ByteAt i byte) {count : UInt8} :
    k.BadCount data count ↔ byte f = count ∧ maxCallbackAccounts < count.toNat := by
  simp only [BadCount, place, Option.some.injEq, exists_eq_left', h.getElem? inside, found f]

theorem not_badStatus (none : k.statusOffset? = none) (code : UInt8) : ¬ k.BadStatus data code := by
  simp [BadStatus, none]

theorem not_badCount (none : k.countOffset? = none) (count : UInt8) : ¬ k.BadCount data count := by
  simp [BadCount, none]

end

theorem map_eq_error {x : Except ε α} {g : α → β} {e : ε} : x.map g = .error e ↔ x = .error e := by
  cases x <;> simp [Except.map]

/-- What is checked of the fields is their status, and then their number of callback accounts. -/
theorem Holds.ofFields_eq_error_iff {k : Kind} {data : Bytes} {f : k.layout.Fields} (h : k.Holds data f)
    {e : DecodeError} : k.layout.ofFields f = .error e ↔
      (∃ code, k.BadStatus data code ∧ e = .invalidStatus k code) ∨
      ((∀ code, ¬ k.BadStatus data code) ∧
        ∃ count, k.BadCount data count ∧ e = .invalidCallbackCount k count maxCallbackAccounts) := by
  cases k with
  | legacyConfig | coordinatorConfig | subscription | consumerRegistration =>
    refine iff_of_false nofun ?_
    rintro (⟨code, bad, _⟩ | ⟨_, count, bad, _⟩)
    · exact not_badStatus rfl code bad
    · exact not_badCount rfl count bad
  | legacyRequest =>
    change (Layout.readStatus .legacyRequest f.2.2.2.2.2.1).map _ = _ ↔ _
    simp only [map_eq_error, readStatus_eq_error_iff, h.badStatus_iff rfl (by decide) legacyRequest_status,
      not_badCount (k := .legacyRequest) rfl, false_and, exists_false, and_false, or_false, and_assoc,
      exists_eq_left']
  | wordsRequest =>
    let code := f.2.2.2.2.2.2.2.2.1
    let count := f.2.2.2.2.2.2.2.2.2.2.2.1
    have status (c : UInt8) : BadStatus .wordsRequest data c ↔ code = c ∧ 1 < c.toNat :=
      h.badStatus_iff rfl (by decide) wordsRequest_status
    have number (n : UInt8) : BadCount .wordsRequest data n ↔ count = n ∧ maxCallbackAccounts < n.toNat :=
      h.badCount_iff rfl (by decide) wordsRequest_count
    simp only [status, number, and_assoc, exists_eq_left', not_and, forall_eq']
    change (Layout.readStatus .wordsRequest code >>= fun _ => if count.toNat > maxCallbackAccounts then _ else _) =
      _ ↔ _
    cases read : Layout.readStatus .wordsRequest code with
    | error e' =>
      obtain ⟨above, rfl⟩ := readStatus_eq_error_iff.1 read
      have bad : 1 < code.toNat := above
      simp only [bind, Except.bind, bad, not_true, true_and, false_and, or_false, Except.error.injEq]
      exact eq_comm
    | ok s =>
      have fine : ¬ 1 < code.toNat := by
        intro above
        rw [(readStatus_eq_error_iff (k := .wordsRequest)).2 ⟨above, rfl⟩] at read
        cases read
      simp only [bind, Except.bind, fine, false_and, not_false_iff, true_and, false_or]
      by_cases many : maxCallbackAccounts < count.toNat
      · rw [if_pos many]
        simp only [many, true_and, Except.error.injEq]
        exact eq_comm
      · rw [if_neg many]
        simp only [many, false_and, reduceCtorEq]
  | compressedRequest =>
    change (Layout.readStatus .compressedRequest f.2.2.2.2.1).map _ = _ ↔ _
    simp only [map_eq_error, readStatus_eq_error_iff, h.badStatus_iff rfl (by decide) compressedRequest_status,
      not_badCount (k := .compressedRequest) rfl, false_and, exists_false, and_false, or_false, and_assoc,
      exists_eq_left']

theorem Holds.of_front {k : Kind} {data : Bytes} (long : 8 + k.bodySize ≤ data.length)
    (front : data.take 8 = k.discriminator.bytes) :
    k.Holds data (k.layout.codec.read (data.slice 8 k.bodySize long)) where
  front := by
    have body := congrArg Block.bytes (k.layout.codec.write_read (data.slice 8 k.bodySize long))
    rw [size, List.take_add, front, Codec.encode, body]
    rfl

theorem decode_of_front {k : Kind} {data : Bytes} (long : 8 + k.bodySize ≤ data.length)
    (front : data.take 8 = k.discriminator.bytes) :
    k.decode data = k.layout.ofFields (k.layout.codec.read (data.slice 8 k.bodySize long)) := by
  rw [decode, dif_pos long]
  exact if_pos (Block.ext front)

/-- Reading fails with the first fault. -/
theorem decode_eq_error_iff {k : Kind} {data : Bytes} {e : DecodeError} :
    k.decode data = .error e ↔ k.Fault data e := by
  by_cases long : 8 + k.bodySize ≤ data.length
  · have size : ¬ data.length < k.size := Nat.not_lt.2 long
    have slice : (data.slice 0 8 (by omega)).bytes = data.take 8 := rfl
    by_cases front : data.slice 0 8 (by omega) = k.discriminator
    · have front' : data.take 8 = k.discriminator.bytes := by rw [← slice, front]
      rw [decode_of_front long front', (Holds.of_front long front').ofFields_eq_error_iff]
      constructor
      · rintro (⟨code, bad, rfl⟩ | ⟨status, count, bad, rfl⟩)
        · exact .invalidStatus long front' bad
        · exact .invalidCallbackCount long front' status bad
      · intro fault
        cases fault with
        | tooShort short => exact absurd short size
        | wrongDiscriminator _ found other =>
          exact absurd (Block.ext (found.symm.trans front')) other
        | invalidStatus _ _ bad => exact .inl ⟨_, bad, rfl⟩
        | invalidCallbackCount _ _ status bad => exact .inr ⟨status, _, bad, rfl⟩
    · rw [decode, dif_pos long]
      simp only [front, if_false, Except.error.injEq]
      constructor
      · rintro rfl
        exact .wrongDiscriminator long slice.symm front
      · intro fault
        cases fault with
        | tooShort short => exact absurd short size
        | wrongDiscriminator _ found other => rw [Block.ext (slice.trans found)]
        | invalidStatus _ found bad | invalidCallbackCount _ found status bad =>
          exact absurd (Block.ext (slice.trans found)) front
  · have short : data.length < k.size := Nat.lt_of_not_le long
    rw [decode, dif_neg long, Except.error.injEq]
    constructor
    · rintro rfl
      exact .tooShort short
    · intro fault
      cases fault with
      | tooShort => rfl
      | wrongDiscriminator large | invalidStatus large | invalidCallbackCount large =>
        exact absurd large (Nat.not_le.2 short)

/-- A record that was read has the bytes that it was read from. -/
theorem encode_of_decode {k : Kind} {data : Bytes} {r : k.Record} (h : k.decode data = .ok r) :
    k.encode r = data.take k.size := by
  have sound (e : DecodeError) : ¬ k.Fault data e := by
    intro fault
    rw [decode_eq_error_iff.2 fault] at h
    cases h
  have long : k.size ≤ data.length := Nat.not_lt.1 fun short => sound _ (.tooShort short)
  have front : data.take 8 = k.discriminator.bytes := by
    have reach : 0 + 8 ≤ data.length := by rw [size] at long; omega
    apply Decidable.byContradiction
    intro other
    have differs : data.slice 0 8 reach ≠ k.discriminator := fun same => other (congrArg Block.bytes same)
    exact sound _ (.wrongDiscriminator long rfl differs)
  rw [decode_of_front long front] at h
  rw [encode, encodeBody, fields_of_ofFields h, (Holds.of_front long front).front]

/-- Accounts are read exactly as they are written. What is wrong with an account's data is told, the first
fault first, and data without a fault gives the record whose bytes they start with; and every record that its
kind allows is read from its bytes, whatever follows them. -/
theorem decodes_exactly (k : Kind) :
    (∀ data e, k.decode data = .error e ↔ k.Fault data e) ∧
    (∀ data, (∀ e, ¬ k.Fault data e) → ∃ r, k.decode data = .ok r ∧ k.encode r = data.take k.size) ∧
    ∀ r, k.Legible r → ∀ rest, (k.encode r).length = k.size ∧ k.decode (k.encode r ++ rest) = .ok r := by
  refine ⟨fun _ _ => decode_eq_error_iff, ?_, ?_⟩
  · intro data sound
    cases read : k.decode data with
    | error e => exact absurd (decode_eq_error_iff.1 read) (sound e)
    | ok r => exact ⟨r, rfl, encode_of_decode read⟩
  · intro r legible rest
    exact ⟨length_encode k r, by rw [decode_encode_append, ofFields_fields k r legible]⟩

example : [legacyConfig, coordinatorConfig, subscription, consumerRegistration, legacyRequest, wordsRequest,
    compressedRequest].map size = [121, 101, 69, 57, 162, 308, 121] := by decide

end Kind

namespace Recorded

def repeated (n : UInt8) : Block 32 := ⟨List.replicate 32 n, List.length_replicate⟩

/-- An answered request with all its callback accounts. -/
def answered (seed : Block 32) : WordsRequest where
  requestId := 3
  subscriptionId := 5
  consumerProgram := repeated 9
  requester := repeated 8
  numWords := 2
  seed := seed
  requestSlot := 101
  callbackComputeLimit := 200000
  status := .fulfilled
  randomness := repeated 7
  fulfilledSlot := 102
  numCallbackAccounts := 4
  callbackAccounts := #v[repeated 1, repeated 2, repeated 3, repeated 4]
  callbackWritableBitmap := 10
  bump := 255

/-- The request is read from its bytes and what follows them, which are without a fault. -/
theorem answered_read :
    let data := Kind.wordsRequest.encode (answered (repeated 6)) ++ [1, 2, 3]
    Kind.wordsRequest.Legible (answered (repeated 6)) ∧
      Kind.wordsRequest.decode data = .ok (answered (repeated 6)) ∧
      (∀ e, ¬ Kind.wordsRequest.Fault data e) ∧
      ∃ r, Kind.wordsRequest.decode data = .ok r ∧ Kind.wordsRequest.encode r = data.take 308 := by
  intro data
  obtain ⟨faults, reads, writes⟩ := Kind.decodes_exactly .wordsRequest
  have legible : Kind.wordsRequest.Legible (answered (repeated 6)) := by decide
  have read : Kind.wordsRequest.decode data = .ok (answered (repeated 6)) := (writes _ legible [1, 2, 3]).2
  have sound (e : DecodeError) : ¬ Kind.wordsRequest.Fault data e := by
    intro fault
    rw [← faults, read] at fault
    cases fault
  exact ⟨legible, read, sound, reads data sound⟩

end Recorded

end Randomness
