import Mathlib.Algebra.Ring.Nat
import Mathlib.Tactic.IntervalCases
import Mathlib.Tactic.Ring
import Randomness.Coordinator

/-!
The steps of the coordinator that would crash outside their range, and what is checked before them: data is cut
behind a look at its length, slots are filled behind one at the number of accounts, and a fee is taken off a
balance that covers it.
-/

namespace Randomness

namespace Coordinator

theorem cut_of_le {bs : Bytes} {i n : Nat} (h : i + n ≤ bs.length) : cut bs i n = .ok (bs.slice i n h) := by
  simp only [cut, Bytes.slice?, h, dite_true]

theorem behind_of_le {as : List α} {n : Nat} (h : n ≤ as.length) : behind as n = .ok (as.drop n) := if_pos h

theorem minus64_of_le {m n : UInt64} (h : n ≤ m) : minus64 m n = .ok (m - n) := if_pos h

/-! ## Signatures -/

section

variable [Crypto] {authority : Address} {id : UInt64} {randomness : Block 32}

/-- Whatever the data of a signature is, looking into it has a result. -/
theorem carries_eq {i : Instruction} (told : i.program = Instruction.signatureProgram) :
    carries authority (Proof.message id randomness).bytes i.data = .ok (proves authority id randomness i) := by
  unfold carries proves
  rw [decide_eq_true told, Bool.true_and]
  by_cases short : i.data.length < 112
  · have none : i.data.slice? 48 64 = none := dif_neg (by omega)
    rw [if_pos short, none]
    cases i.data.slice? 16 32 <;> rfl
  · have key : 16 + 32 ≤ i.data.length := by omega
    have signature : 48 + 64 ≤ i.data.length := by omega
    have message : 112 ≤ i.data.length := by omega
    rw [if_neg short, cut_of_le key, cut_of_le signature, behind_of_le message, Bytes.slice?, Bytes.slice?,
      dif_pos key, dif_pos signature]
    change (if i.data.slice 16 32 key ≠ authority then (Except.ok false : Outcome Bool) else _) = _
    by_cases other : i.data.slice 16 32 key = authority
    · rw [if_neg (not_not.2 other)]
      simp only [other, decide_true, Bool.true_and]
      rfl
    · rw [if_pos other]
      simp only [other, decide_false, Bool.false_and]

theorem anyM_carries_eq (is : List Instruction) :
    (is.filter fun i => i.program = Instruction.signatureProgram).anyM
      (fun i => carries authority (Proof.message id randomness).bytes i.data) =
        .ok (is.any (proves authority id randomness)) := by
  induction is with
  | nil => rfl
  | cons i is ih =>
    by_cases told : i.program = Instruction.signatureProgram
    · rw [List.filter_cons_of_pos (by simpa using told), List.anyM, carries_eq told, List.any_cons]
      cases proves authority id randomness i with
      | true => rfl
      | false => exact ih
    · have nothing : proves authority id randomness i = false := by
        rw [proves, decide_eq_false told, Bool.false_and]
      rw [List.filter_cons_of_neg (by simpa using told), ih, List.any_cons, nothing, Bool.false_or]

/-- A proof is only missing, it is never out of reach. -/
theorem requireProof_eq (x : Surroundings) : requireProof x authority id randomness =
    require (x.instructions.any (proves authority id randomness)) .invalidProof := by
  rw [requireProof, anyM_carries_eq]
  rfl

end

/-! ## Callback accounts -/

/-- The flags as a number, the first one in the lowest bit. -/
def flags (metas : List AccountMeta) : Nat :=
  metas.foldr (fun m n => (if m.isWritable then 1 else 0) + 2 * n) 0

theorem flags_lt (metas : List AccountMeta) : flags metas < 2 ^ metas.length := by
  induction metas with
  | nil => exact Nat.one_pos
  | cons m metas ih =>
    simp only [flags, List.foldr_cons, List.length_cons, Nat.pow_succ] at ih ⊢
    split <;> omega

theorem testBit_flags (metas : List AccountMeta) (j : Nat) :
    (flags metas).testBit j = (metas[j]?.map AccountMeta.isWritable).getD false := by
  induction metas generalizing j with
  | nil => simp [flags]
  | cons m metas ih =>
    have step : flags (m :: metas) = (if m.isWritable then 1 else 0) + 2 * flags metas := rfl
    cases j with
    | zero =>
      rw [step, Nat.testBit_zero]
      cases flag : m.isWritable <;> simp [flag]
    | succ j =>
      have half : flags (m :: metas) / 2 = flags metas := by
        rw [step]
        split <;> omega
      rw [Nat.testBit_succ, half, ih, List.getElem?_cons_succ]

theorem toNat_writableBitmap {metas : List AccountMeta} (few : metas.length ≤ maxCallbackAccounts) :
    (writableBitmap metas).toNat = flags metas := by
  have small : flags metas < 2 ^ 4 := (flags_lt metas).trans_le (Nat.pow_le_pow_right (by decide) few)
  exact UInt8.toNat_ofNat_of_lt (small.trans (by decide))

theorem testBit_writableBitmap {metas : List AccountMeta} (few : metas.length ≤ maxCallbackAccounts) (j : Nat) :
    (writableBitmap metas).toNat.testBit j = (metas[j]?.map AccountMeta.isWritable).getD false := by
  rw [toNat_writableBitmap few, testBit_flags]

section

variable {m : AccountMeta}

theorem callbackSlots_snoc {placed : List AccountMeta} (room : placed.length < 4) :
    callbackSlots (placed ++ [m]) = (callbackSlots placed).set placed.length m.key := by
  apply Vector.ext
  intro j hj
  simp only [callbackSlots, Vector.getElem_ofFn, Vector.getElem_set]
  rcases Nat.lt_trichotomy j placed.length with below | rfl | above
  · rw [List.getElem?_append_left below, if_neg (by omega)]
  · rw [List.getElem?_concat_length, if_pos rfl]
  · have last : (placed ++ [m]).length ≤ j := by rw [List.length_append, List.length_singleton]; omega
    rw [List.getElem?_eq_none last, List.getElem?_eq_none (by omega), if_neg (by omega)]

theorem flags_snoc (placed : List AccountMeta) : flags (placed ++ [m]) =
    2 ^ placed.length * (if m.isWritable then 1 else 0) + flags placed := by
  induction placed with
  | nil => simp [flags]
  | cons p placed ih =>
    have step (ms : List AccountMeta) : flags (p :: ms) = (if p.isWritable then 1 else 0) + 2 * flags ms := rfl
    rw [List.cons_append, step, step, ih, List.length_cons, Nat.pow_succ]
    ring

/-- The bit of the next account stands above all that are set. -/
theorem writableBitmap_snoc {placed : List AccountMeta} (room : placed.length < 4) : writableBitmap (placed ++ [m]) =
    if m.isWritable then writableBitmap placed ||| 1 <<< UInt8.ofNat placed.length else writableBitmap placed := by
  have after : (placed ++ [m]).length ≤ maxCallbackAccounts := by
    rw [List.length_append, List.length_singleton]
    exact room
  have bit : ((1 : UInt8) <<< UInt8.ofNat placed.length).toNat = 2 ^ placed.length := by
    generalize placed.length = j at room
    interval_cases j <;> rfl
  apply UInt8.toNat_inj.1
  rw [toNat_writableBitmap after, flags_snoc]
  cases m.isWritable with
  | true =>
    rw [if_pos rfl, if_pos rfl, UInt8.toNat_or, bit, toNat_writableBitmap room.le,
      Nat.two_pow_add_eq_or_of_lt (flags_lt placed), Nat.mul_one, Nat.or_comm]
  | false => rw [if_neg Bool.false_ne_true, if_neg Bool.false_ne_true, toNat_writableBitmap room.le, Nat.mul_zero,
      Nat.zero_add]

/-- Accounts that fit into the slots are put there one after the other. -/
theorem placeFrom_eq (placed : List AccountMeta) {ms : List AccountMeta} (few : placed.length + ms.length ≤ 4) :
    placeFrom placed.length (callbackSlots placed) (writableBitmap placed) ms =
      .ok (callbackSlots (placed ++ ms), writableBitmap (placed ++ ms)) := by
  induction ms generalizing placed with
  | nil => rw [placeFrom, List.append_nil]
  | cons m ms ih =>
    rw [List.length_cons] at few
    have room : placed.length < 4 := by omega
    have next := ih (placed ++ [m]) (by rw [List.length_append, List.length_singleton]; omega)
    rw [List.append_assoc, List.singleton_append, List.length_append, List.length_singleton] at next
    rw [placeFrom, dif_pos room, ← callbackSlots_snoc room, ← writableBitmap_snoc room, next]

/-- Up to four accounts are placed, into slots and bits that were zero. -/
theorem place_eq {ms : List AccountMeta} (few : ms.length ≤ 4) :
    placeFrom 0 (Vector.replicate 4 Address.zero) 0 ms = .ok (callbackSlots ms, writableBitmap ms) :=
  placeFrom_eq [] (by rwa [List.length_nil, Nat.zero_add])

end

end Coordinator

end Randomness
