import Randomness.Proofs.Armor
import Randomness.Proofs.Operation

/-!
The written form of bytes is the only one: a text that decodes is what its bytes are written as.
-/

namespace Randomness

theorem Text.utf8_injective {cs ds : List Char} (h : utf8 cs = utf8 ds) : cs = ds := by
  apply String.ofList_injective
  rw [← String.toByteArray_inj, String.toByteArray_ofList, String.toByteArray_ofList]
  exact congrArg List.toByteArray h

namespace Base64

theorem code_of_value? {b : UInt8} {n : Nat} (h : value? b = some n) : n < 64 ∧ b = code n := by
  have all : ∀ i < 256, ∀ m ∈ value? (UInt8.ofNat i), m < 64 ∧ UInt8.ofNat i = code m := by decide +kernel
  have same : UInt8.ofNat b.toNat = b := UInt8.ofNat_toNat
  have facts := all b.toNat b.toNat_lt
  rw [same] at facts
  exact facts n h

theorem code_of_values {i : Nat} {bs : Bytes} {ns : List Nat} (h : values i bs = .ok ns) :
    bs = ns.map code ∧ ∀ n ∈ ns, n < 64 := by
  induction bs generalizing i ns with
  | nil =>
    cases h
    simp
  | cons b bs ih =>
    rw [values] at h
    split at h
    · cases h
    · next n value =>
      obtain ⟨small, head⟩ := code_of_value? value
      obtain ⟨ms, rest, rfl⟩ := map_eq_ok.1 h
      obtain ⟨tail, others⟩ := ih rest
      rw [head, tail]
      exact ⟨rfl, List.forall_mem_cons.2 ⟨small, others⟩⟩

/-- Behind a padding byte there is only padding. -/
theorem code_of_lastValues {i k : Nat} {padAt : Option Nat} {bs : Bytes} {vs : List Nat} {p : Nat}
    (h : lastValues i k padAt bs = .ok (vs, p)) :
    bs = vs.map code ++ List.replicate p pad ∧ (∀ n ∈ vs, n < 64) ∧ (padAt.isSome → vs = []) := by
  induction bs generalizing k padAt vs p with
  | nil =>
    cases h
    simp
  | cons b bs ih =>
    unfold lastValues at h
    split at h
    · next pads =>
      split at h
      · cases h
      · obtain ⟨⟨ws, q⟩, rest, same⟩ := map_eq_ok.1 h
        cases same
        obtain ⟨tail, _, none⟩ := ih rest
        obtain rfl := none (by cases padAt <;> rfl)
        rw [pads, tail]
        simp [List.replicate_succ]
    · split at h
      · cases h
      · cases h
      · next n value =>
        obtain ⟨small, head⟩ := code_of_value? value
        obtain ⟨⟨ws, q⟩, rest, same⟩ := map_eq_ok.1 h
        cases same
        obtain ⟨tail, others, _⟩ := ih rest
        rw [head, tail]
        exact ⟨rfl, List.forall_mem_cons.2 ⟨small, others⟩, by simp⟩

theorem decodeLast_eq_ok {i : Nat} {group bs : Bytes} (h : decodeLast i group = .ok bs) :
    ∃ vs p, lastValues i 0 none group = .ok (vs, p) ∧ 2 ≤ vs.length ∧ (vs.length + p) % 4 = 0 ∧
      vs.getLastD 0 % (if vs.length = 2 then 16 else if vs.length = 3 then 4 else 1) = 0 ∧
      bs = (joinGroups (vs ++ [0, 0])).take (vs.length * 6 / 8) := by
  obtain ⟨⟨vs, p⟩, read, h⟩ := bind_eq_ok.1 h
  dsimp only at h
  split at h
  · cases h
  · next two =>
    split at h
    · cases h
    · next full =>
      by_cases unused : vs.getLastD 0 % (if vs.length = 2 then 16 else if vs.length = 3 then 4 else 1) = 0
      · rw [if_neg (not_not_intro unused)] at h
        cases h
        exact ⟨vs, p, read, by omega, by omega, unused, rfl⟩
      · rw [if_pos unused] at h
        cases h

theorem sextets_joinGroups (ns : List Nat) (h : ns.length % 4 = 0) (small : ∀ n ∈ ns, n < 64) :
    (joinGroups ns).length % 3 = 0 ∧ sextets (joinGroups ns) = ns := by
  induction ns using joinGroups.induct with
  | case1 a b c d rest ih =>
    simp only [List.length_cons, List.forall_mem_cons] at h small
    obtain ⟨ha, hb, hc, hd, others⟩ := small
    obtain ⟨threes, same⟩ := ih (by omega) others
    simp only [joinGroups, sextets, List.length_cons, same, UInt8.toNat_ofNat']
    refine ⟨by omega, ?_⟩
    congr 1
    · omega
    · congr 1
      · omega
      · congr 1
        · omega
        · congr 1
          omega
  | case2 ns short =>
    rcases ns with _ | ⟨a, _ | ⟨b, _ | ⟨c, _ | ⟨d, rest⟩⟩⟩⟩
    · exact ⟨rfl, rfl⟩
    · cases h
    · cases h
    · cases h
    · exact absurd rfl (short a b c d rest)

/-- The symbols of a last group are those of its bytes. -/
theorem sextets_last {vs : List Nat} (two : 2 ≤ vs.length) (few : vs.length ≤ 4) (small : ∀ n ∈ vs, n < 64)
    (unused : vs.getLastD 0 % (if vs.length = 2 then 16 else if vs.length = 3 then 4 else 1) = 0) :
    let bs := (joinGroups (vs ++ [0, 0])).take (vs.length * 6 / 8)
    bs.length + 1 = vs.length ∧ sextets bs = vs := by
  match vs, two, few with
  | [a, b], _, _ =>
    intro bs
    have even : b % 16 = 0 := unused
    have bytes : bs = [UInt8.ofNat ((a * 262144 + b * 4096 + 0 * 64 + 0) / 65536)] := by
      simp [bs, joinGroups]
    simp only [List.forall_mem_cons] at small
    rw [bytes]
    refine ⟨rfl, ?_⟩
    simp only [sextets, UInt8.toNat_ofNat', List.cons.injEq, and_true]
    omega
  | [a, b, c], _, _ =>
    intro bs
    have even : c % 4 = 0 := unused
    have bytes : bs = [UInt8.ofNat ((a * 262144 + b * 4096 + c * 64 + 0) / 65536),
        UInt8.ofNat ((a * 262144 + b * 4096 + c * 64 + 0) / 256)] := by
      simp [bs, joinGroups]
    simp only [List.forall_mem_cons] at small
    rw [bytes]
    refine ⟨rfl, ?_⟩
    simp only [sextets, UInt8.toNat_ofNat', List.cons.injEq, and_true]
    omega
  | [a, b, c, d], _, _ =>
    intro bs
    have bytes : bs = joinGroups [a, b, c, d] := by simp [bs, joinGroups]
    rw [bytes]
    exact ⟨rfl, (sextets_joinGroups [a, b, c, d] (by simp) small).2⟩

/-- A last group of at most four bytes has four, and is what its bytes are written as. -/
theorem code_of_decodeLast {i : Nat} {group bs : Bytes} (few : group.length ≤ 4)
    (h : decodeLast i group = .ok bs) : group.length = 4 ∧ group = Text.utf8 (encodeChars bs) := by
  obtain ⟨vs, p, read, two, full, unused, rfl⟩ := decodeLast_eq_ok h
  obtain ⟨same, small, _⟩ := code_of_lastValues read
  have length : group.length = vs.length + p := by
    rw [same, List.length_append, List.length_map, List.length_replicate]
  have four : group.length = 4 := by omega
  obtain ⟨count, symbols⟩ := sextets_last two (by omega) small unused
  have pads : (3 - ((joinGroups (vs ++ [0, 0])).take (vs.length * 6 / 8)).length % 3) % 3 = p := by omega
  exact ⟨four, by rw [utf8_encodeChars, symbols, pads, same]⟩

theorem encode_of_decode {text data : Bytes} (h : decode text = .ok data) :
    text = Text.utf8 (encodeChars data) := by
  unfold decode at h
  extract_lets rest last n at h
  split at h
  · next empty =>
    cases h
    exact List.isEmpty_iff.1 empty
  split at h
  · cases h
  · have hn : text.length - (if rest = 0 then 4 else rest) = n := rfl
    obtain ⟨front, read, h⟩ := bind_eq_ok.1 h
    obtain ⟨back, last, h⟩ := bind_eq_ok.1 h
    cases h
    have few : (text.drop n).length ≤ 4 := by
      rw [List.length_drop]
      split at hn <;> omega
    obtain ⟨four, group⟩ := code_of_decodeLast few last
    obtain ⟨codes, small⟩ := code_of_values read
    have fours : front.length % 4 = 0 := by
      have length : (text.take n).length = front.length := by rw [codes, List.length_map]
      rw [List.length_take] at length
      rw [List.length_drop] at four
      split at hn <;> omega
    obtain ⟨threes, symbols⟩ := sextets_joinGroups front fours small
    have start : Text.utf8 (encodeChars (joinGroups front)) = front.map code := by
      rw [utf8_encodeChars, symbols, threes]
      exact List.append_nil _
    rw [encodeChars_append _ _ threes, Text.utf8, List.flatMap_append]
    calc text = text.take n ++ text.drop n := (List.take_append_drop n text).symm
      _ = Text.utf8 (encodeChars (joinGroups front)) ++ Text.utf8 (encodeChars back) := by
        rw [start, ← codes, ← group]

/-- A text decodes exactly if it is the written form of the result. -/
theorem decode_eq_ok_iff {cs : List Char} {data : Bytes} :
    decode (Text.utf8 cs) = .ok data ↔ cs = encodeChars data := by
  constructor
  · exact fun h => Text.utf8_injective (encode_of_decode h)
  · rintro rfl
    exact decode_encodeChars data

end Base64

end Randomness
