import Randomness.Account.Generations
import Randomness.Proofs.Decoding

/-!
Which kinds of account can be taken for which. All but the two kinds of request have discriminators of their
own; a request for words is longer than a legacy request, and has a byte of its seed where the other one has
its status.
-/

namespace Randomness

def Block.get (b : Block n) (i : Fin n) : UInt8 := b.bytes.get (i.cast b.length_eq.symm)

namespace Codec

theorem ByteAt.inside (c : Codec β) (i : Fin n) : ((block n).pair c).ByteAt i fun ab => ab.1.get i := by
  intro ab
  have front : (block n).encode ab.1 = ab.1.bytes := rfl
  have reach : i.val < ab.1.bytes.length := by rw [ab.1.length_eq]; exact i.isLt
  rw [encode_pair, front, List.getElem?_append_left reach, List.getElem?_eq_getElem reach]
  rfl

end Codec

namespace Kind

/-- The bytes of this record of one kind are also those of a record of the other kind. -/
def PassesAs : (k l : Kind) → k.Record → Prop
  | wordsRequest, legacyRequest, r => r.seed.get 28 ≤ 2
  | _, _, _ => False

open Codec in
theorem wordsRequest_seed : Layout.wordsRequest.codec.ByteAt 112 fun f => f.2.2.2.2.2.1.get 28 :=
  (ByteAt.inside _ 28).behind u32 |>.behind address |>.behind address |>.behind u64 |>.behind u64

/-- A kind with another discriminator is not read. -/
theorem fault_of_discriminator_ne {k l : Kind} (other : k.discriminator ≠ l.discriminator) (r : k.Record) :
    ∃ e, l.Fault (k.encode r) e := by
  by_cases long : l.size ≤ (k.encode r).length
  · refine ⟨_, .wrongDiscriminator long ?_ other⟩
    exact List.take_left' k.discriminator.length_eq
  · exact ⟨_, .tooShort (Nat.lt_of_not_le long)⟩

theorem fault_of_size_lt {k l : Kind} (shorter : k.size < l.size) (r : k.Record) :
    ∃ e, l.Fault (k.encode r) e :=
  ⟨_, .tooShort (by rwa [length_encode])⟩

/-- A request for words has no fault as a legacy request, but for its status. -/
theorem fault_wordsRequest {r : WordsRequest} :
    (∃ e, Fault .legacyRequest (Kind.wordsRequest.encode r) e) ↔ 2 < (r.seed.get 28).toNat := by
  have long : Kind.legacyRequest.size ≤ (Kind.wordsRequest.encode r).length := by
    rw [length_encode]
    decide
  have front : (Kind.wordsRequest.encode r).take 8 = Kind.legacyRequest.discriminator.bytes :=
    List.take_left' Kind.wordsRequest.discriminator.length_eq
  have status : (Kind.wordsRequest.encode r)[120]? = some (r.seed.get 28) :=
    (List.getElem?_append_right (by decide)).trans (wordsRequest_seed (Layout.wordsRequest.fields r))
  have bad (code : UInt8) : BadStatus .legacyRequest (Kind.wordsRequest.encode r) code ↔
      r.seed.get 28 = code ∧ 2 < code.toNat := by
    simp only [BadStatus, statusOffset?, Option.some.injEq, exists_eq_left', status]
    exact Iff.rfl
  constructor
  · rintro ⟨e, fault⟩
    cases fault with
    | tooShort short => exact absurd long (Nat.not_le.2 short)
    | wrongDiscriminator _ found other => exact absurd (Block.ext (found.symm.trans front)) other
    | invalidStatus _ _ invalid =>
      obtain ⟨rfl, above⟩ := (bad _).1 invalid
      exact above
    | invalidCallbackCount _ _ _ invalid => exact absurd invalid (not_badCount rfl _)
  · intro above
    exact ⟨_, .invalidStatus long front ((bad _).2 ⟨rfl, above⟩)⟩

/-- Only the two kinds of request share a discriminator. -/
theorem requests_of_discriminator_eq {k l : Kind} (other : k ≠ l) (same : k.discriminator = l.discriminator) :
    k = .legacyRequest ∧ l = .wordsRequest ∨ k = .wordsRequest ∧ l = .legacyRequest := by
  revert other same
  cases k <;> cases l <;> decide

theorem exists_fault_iff {k l : Kind} (other : k ≠ l) (r : k.Record) :
    (∃ e, l.Fault (k.encode r) e) ↔ ¬ k.PassesAs l r := by
  by_cases same : k.discriminator = l.discriminator
  · rcases requests_of_discriminator_eq other same with ⟨rfl, rfl⟩ | ⟨rfl, rfl⟩
    · exact iff_of_true (fault_of_size_lt (by decide) r) id
    · rw [fault_wordsRequest, PassesAs, UInt8.le_iff_toNat_le, Nat.not_le]
      exact Iff.rfl
  · refine iff_of_true (fault_of_discriminator_ne same r) ?_
    intro passes
    unfold PassesAs at passes
    split at passes
    · exact same rfl
    · exact passes

theorem exists_error_iff {k l : Kind} (other : k ≠ l) (r : k.Record) :
    (∃ e, l.decode (k.encode r) = .error e) ↔ ¬ k.PassesAs l r := by
  simp only [decode_eq_error_iff]
  exact exists_fault_iff other r

/-- Kinds are told apart by their bytes: no record is read as one of another kind, but a request for words as a
legacy request if the byte of its seed at the place of the status is a status. -/
theorem told_apart :
    (∀ k l : Kind, k ≠ l → ∀ r : k.Record, (∃ e, l.decode (k.encode r) = .error e) ↔ ¬ k.PassesAs l r) ∧
    (∀ r : LegacyRequest, ∃ e, RequestAccount.decode .subscription (Kind.legacyRequest.encode r) = .error e) ∧
    ∀ r : WordsRequest, (∃ e, RequestAccount.decode .legacy (Kind.wordsRequest.encode r) = .error e) ↔
      2 < (r.seed.get 28).toNat := by
  refine ⟨fun k l => exists_error_iff, ?_, ?_⟩
  · intro r
    simp only [RequestAccount.decode, map_eq_error]
    exact (exists_error_iff (k := .legacyRequest) (l := .wordsRequest) (by decide) r).2 id
  · intro r
    simp only [RequestAccount.decode, map_eq_error]
    rw [exists_error_iff (k := .wordsRequest) (l := .legacyRequest) (by decide), ← exists_fault_iff (by decide)]
    exact fault_wordsRequest

end Kind

namespace Recorded

/-- With three in its seed, a request for words is refused as a legacy request. -/
theorem answered_refused :
    Kind.wordsRequest ≠ .legacyRequest ∧
      ∃ e, Kind.legacyRequest.decode (Kind.wordsRequest.encode (answered (repeated 3))) = .error e := by
  have other : Kind.wordsRequest ≠ .legacyRequest := by decide
  have alone : ¬ Kind.wordsRequest.PassesAs .legacyRequest (answered (repeated 3)) := by
    change ¬ (3 : UInt8) ≤ 2
    decide
  exact ⟨other, (Kind.told_apart.1 _ _ other _).2 alone⟩

/-- With one in its seed, it is read as a legacy request that is fulfilled. -/
theorem answered_mistaken : Kind.wordsRequest ≠ .legacyRequest ∧
    Kind.wordsRequest.Legible (answered (repeated 1)) ∧ ∃ q,
      Kind.legacyRequest.decode (Kind.wordsRequest.encode (answered (repeated 1))) = .ok q ∧
        q.requestId = 3 ∧ q.status = .fulfilled := by
  refine ⟨by decide, by decide, ?_⟩
  have read : ((Kind.legacyRequest.decode (Kind.wordsRequest.encode (answered (repeated 1)))).toOption.map
      fun q => (q.requestId, q.status)) = some (3, .fulfilled) := by decide +kernel
  cases ok : Kind.legacyRequest.decode (Kind.wordsRequest.encode (answered (repeated 1))) with
  | error e =>
    rw [ok] at read
    cases read
  | ok q =>
    rw [ok] at read
    obtain ⟨id, status⟩ := Prod.mk.inj (Option.some.inj read)
    exact ⟨q, rfl, id, status⟩

end Recorded

end Randomness
