import Mathlib.Algebra.Ring.Nat
import Mathlib.Data.List.Induction
import Randomness.Address
import Randomness.Bytes

/-!
Base 58 read back from its own text, and with it the texts of addresses.
-/

namespace Randomness

namespace Base58

theorem symbol_facts : ∀ d < 58, (alphabet.getD d '1').toNat ≤ 127 ∧ digit? (alphabet.getD d '1') = some d ∧
    (String.utf8EncodeChar (alphabet.getD d '1')).length = 1 := by
  decide +kernel

theorem ofDigits_append (ds : List Nat) (d : Nat) : ofDigits (ds ++ [d]) = ofDigits ds * 58 + d := by
  simp only [ofDigits, List.foldl_append, List.foldl_cons, List.foldl_nil]

theorem ofBigEndian_append (bs : Bytes) (b : UInt8) :
    ofBigEndian (bs ++ [b]) = ofBigEndian bs * 256 + b.toNat := by
  simp only [ofBigEndian, List.foldl_append, List.foldl_cons, List.foldl_nil]

theorem digits_of_ne_zero {n : Nat} (h : n ≠ 0) : digits n = digits (n / 58) ++ [n % 58] := by
  rw [digits, dif_neg h]

theorem bigEndian_of_ne_zero {n : Nat} (h : n ≠ 0) : bigEndian n = bigEndian (n / 256) ++ [UInt8.ofNat n] := by
  rw [bigEndian, dif_neg h]

theorem bigEndian_eq_nil_iff {n : Nat} : bigEndian n = [] ↔ n = 0 := by
  constructor
  · intro h
    by_contra some
    rw [bigEndian_of_ne_zero some] at h
    simp at h
  · rintro rfl
    rw [bigEndian, dif_pos rfl]

/-- The digits of a number spell it, and the first of them is not zero. -/
theorem digits_spec (n : Nat) : ofDigits (digits n) = n ∧ (∀ d ∈ digits n, d < 58) ∧
    (digits n).takeWhile (· == 0) = [] := by
  induction n using Nat.strongRecOn with
  | ind n ih =>
    by_cases zero : n = 0
    · subst zero
      rw [digits, dif_pos rfl]
      exact ⟨rfl, by simp, rfl⟩
    · obtain ⟨spell, small, first⟩ := ih (n / 58) (by omega)
      rw [digits_of_ne_zero zero]
      refine ⟨?_, ?_, ?_⟩
      · rw [ofDigits_append, spell]
        omega
      · intro d hd
        rcases List.mem_append.1 hd with hd | hd
        · exact small d hd
        · rw [List.mem_singleton.1 hd]
          omega
      · cases front : digits (n / 58) with
        | nil =>
          have none : n / 58 = 0 := by
            rw [front] at spell
            exact spell.symm
          have some : n % 58 ≠ 0 := by omega
          simp [some]
        | cons d ds =>
          rw [front] at first
          by_cases hd : d = 0
          · simp [hd] at first
          · simp [hd]

theorem length_digits_le {n k : Nat} (h : n < 58 ^ k) : (digits n).length ≤ k := by
  induction k generalizing n with
  | zero =>
    obtain rfl : n = 0 := by simpa using h
    rw [digits, dif_pos rfl]
    exact Nat.le_refl 0
  | succ k ih =>
    by_cases zero : n = 0
    · subst zero
      rw [digits, dif_pos rfl]
      exact Nat.zero_le _
    · have rest := ih (n := n / 58) (by rw [Nat.pow_succ] at h; omega)
      rw [digits_of_ne_zero zero, List.length_append, List.length_singleton]
      omega

theorem bigEndian_append {n : Nat} (h : n ≠ 0) (b : UInt8) :
    bigEndian (n * 256 + b.toNat) = bigEndian n ++ [b] := by
  have hb := b.toNat_lt
  have high : (n * 256 + b.toNat) / 256 = n := by omega
  have low : UInt8.ofNat (n * 256 + b.toNat) = b := by
    apply UInt8.toNat_inj.1
    rw [UInt8.toNat_ofNat']
    omega
  rw [bigEndian_of_ne_zero (by omega), high, low]

theorem bigEndian_toNat (b : UInt8) : bigEndian b.toNat = [b].dropWhile (· == 0) := by
  have hb := b.toNat_lt
  by_cases zero : b = 0
  · subst zero
    exact bigEndian_eq_nil_iff.2 rfl
  · have some : b.toNat ≠ 0 := fun h => zero (UInt8.toNat_inj.1 h)
    have none : b.toNat / 256 = 0 := by omega
    rw [bigEndian_of_ne_zero some, none, bigEndian_eq_nil_iff.2 rfl, UInt8.ofNat_toNat]
    simp [zero]

/-- Leading zeros are lost, and nothing else. -/
theorem bigEndian_ofBigEndian (bs : Bytes) : bigEndian (ofBigEndian bs) = bs.dropWhile (· == 0) := by
  induction bs using List.reverseRecOn with
  | nil => exact bigEndian_eq_nil_iff.2 rfl
  | append_singleton bs b ih =>
    rw [ofBigEndian_append, List.dropWhile_append, ← ih]
    by_cases front : ofBigEndian bs = 0
    · rw [if_pos (List.isEmpty_iff.2 (bigEndian_eq_nil_iff.2 front)), front, Nat.zero_mul, Nat.zero_add,
        bigEndian_toNat]
    · rw [if_neg fun empty => front (bigEndian_eq_nil_iff.1 (List.isEmpty_iff.1 empty)),
        bigEndian_append front]

theorem ofBigEndian_lt (bs : Bytes) : ofBigEndian bs < 256 ^ bs.length := by
  induction bs using List.reverseRecOn with
  | nil => exact Nat.one_pos
  | append_singleton bs b ih =>
    have hb := b.toNat_lt
    rw [ofBigEndian_append, List.length_append, List.length_singleton, Nat.pow_succ]
    omega

theorem ofBigEndian_dropWhile (bs : Bytes) : ofBigEndian (bs.dropWhile (· == 0)) = ofBigEndian bs := by
  induction bs with
  | nil => rfl
  | cons b bs ih =>
    by_cases zero : b = 0
    · subst zero
      exact ih
    · rw [List.dropWhile_cons_of_neg (by simpa using zero)]

/-- A text is at most 44 characters for 32 bytes, whatever leading zeros there are. -/
theorem length_digits_block (bs : Bytes) (h : bs.length = 32) :
    (bs.takeWhile (· == 0)).length + (digits (ofBigEndian bs)).length ≤ 44 := by
  have parts := congrArg List.length (List.takeWhile_append_dropWhile (p := (· == 0)) (l := bs))
  rw [List.length_append, h] at parts
  have bound := ofBigEndian_lt (bs.dropWhile (· == 0))
  rw [ofBigEndian_dropWhile] at bound
  generalize (bs.takeWhile (· == 0)).length = z at *
  have rest : (bs.dropWhile (· == 0)).length = 32 - z := by omega
  rw [rest] at bound
  have fits : 256 ^ (32 - z) ≤ 58 ^ (44 - z) := by
    have all : ∀ z ≤ 32, 256 ^ (32 - z) ≤ 58 ^ (44 - z) := by decide +kernel
    exact all z (by omega)
  have few := length_digits_le (Nat.lt_of_lt_of_le bound fits)
  omega

theorem readDigits_symbols (i : Nat) (ds : List Nat) (h : ∀ d ∈ ds, d < 58) :
    readDigits i (ds.map (alphabet.getD · '1')) = .ok ds := by
  induction ds generalizing i with
  | nil => rfl
  | cons d ds ih =>
    obtain ⟨ascii, value, _⟩ := symbol_facts d (h d List.mem_cons_self)
    have rest := ih (i + 1) fun e he => h e (List.mem_cons_of_mem d he)
    simp only [List.map_cons, readDigits, if_neg (Nat.not_lt.2 ascii), value, rest]
    rfl

theorem toList_encode (bs : Bytes) : (encode bs).toList =
    (((bs.takeWhile (· == 0)).map fun _ => 0) ++ digits (ofBigEndian bs)).map (alphabet.getD · '1') := by
  rw [encode, String.toList_ofList, List.map_append, List.map_map]
  rfl

theorem digits_of_bytes_lt (bs : Bytes) :
    ∀ d ∈ ((bs.takeWhile (· == 0)).map fun _ => 0) ++ digits (ofBigEndian bs), d < 58 := by
  intro d hd
  rcases List.mem_append.1 hd with hd | hd
  · obtain ⟨_, _, rfl⟩ := List.mem_map.1 hd
    decide
  · exact (digits_spec (ofBigEndian bs)).2.1 d hd

theorem ofDigits_zeros (zs ds : List Nat) (h : ∀ z ∈ zs, z = 0) : ofDigits (zs ++ ds) = ofDigits ds := by
  induction zs with
  | nil => rfl
  | cons z zs ih =>
    obtain ⟨zero, others⟩ := List.forall_mem_cons.1 h
    subst zero
    exact ih others

/-- Decoding undoes encoding. -/
theorem decode_encode (bs : Bytes) : decode (encode bs).toList = .ok bs := by
  obtain ⟨spell, _, first⟩ := digits_spec (ofBigEndian bs)
  have zeros : ∀ z ∈ (bs.takeWhile (· == 0)).map fun _ => (0 : Nat), z = 0 := by
    intro z hz
    obtain ⟨_, _, rfl⟩ := List.mem_map.1 hz
    rfl
  have leading : (((bs.takeWhile (· == 0)).map fun _ => 0) ++ digits (ofBigEndian bs)).takeWhile (· == 0) =
      (bs.takeWhile (· == 0)).map fun _ => 0 := by
    rw [List.takeWhile_append_of_pos (fun z hz => by simp [zeros z hz]), first, List.append_nil]
  have same : ((bs.takeWhile (· == 0)).map fun _ => (0 : UInt8)) = bs.takeWhile (· == 0) := by
    refine (List.map_congr_left fun b hb => ?_).trans (List.map_id _)
    have zero := List.all_eq_true.1 (List.all_takeWhile (p := (· == 0)) (l := bs)) b hb
    exact (beq_iff_eq.1 zero).symm
  rw [decode, toList_encode, readDigits_symbols 0 _ (digits_of_bytes_lt bs)]
  refine congrArg Except.ok ?_
  simp only [leading, List.map_map, ofDigits_zeros _ _ zeros, spell, bigEndian_ofBigEndian]
  exact (congrArg (· ++ _) same).trans List.takeWhile_append_dropWhile

theorem length_utf8_symbols (ds : List Nat) (h : ∀ d ∈ ds, d < 58) :
    ((ds.map (alphabet.getD · '1')).flatMap String.utf8EncodeChar).length = ds.length := by
  induction ds with
  | nil => rfl
  | cons d ds ih =>
    obtain ⟨_, _, one⟩ := symbol_facts d (h d List.mem_cons_self)
    have rest := ih fun e he => h e (List.mem_cons_of_mem d he)
    rw [List.map_cons, List.flatMap_cons, List.length_append, one, rest, List.length_cons, Nat.add_comm]

/-- A text takes one byte for each digit. -/
theorem utf8ByteSize_encode (bs : Bytes) : (encode bs).utf8ByteSize =
    (bs.takeWhile (· == 0)).length + (digits (ofBigEndian bs)).length := by
  have text : encode bs = String.ofList
      ((((bs.takeWhile (· == 0)).map fun _ => 0) ++ digits (ofBigEndian bs)).map (alphabet.getD · '1')) := by
    rw [← toList_encode, String.ofList_toList]
  have size := length_utf8_symbols _ (digits_of_bytes_lt bs)
  rw [List.length_append, List.length_map] at size
  rw [text, ← String.size_toByteArray, String.toByteArray_ofList, List.utf8Encode, List.size_toByteArray, size]

end Base58

namespace Address

theorem parse_text (a : Address) : parse a.text = .ok a := by
  have short : ¬ a.text.utf8ByteSize > 44 := by
    rw [text, Base58.utf8ByteSize_encode]
    exact Nat.not_lt.2 (Base58.length_digits_block a.bytes a.length_eq)
  rw [parse, if_neg short, text, Base58.decode_encode]
  simp only [Block.ofBytes?_bytes]

end Address

end Randomness
