import Randomness.Event

/-!
Base 64 read back from its own text: a text that was encoded decodes to what it was encoded from, and
stands in a line without blanks around it.
-/

namespace Randomness.Base64

/-- The ASCII code of a symbol. -/
def code (n : Nat) : UInt8 := UInt8.ofNat (symbol n).toNat

theorem symbol_facts : ∀ n < 64, value? (code n) = some n ∧ code n ≠ pad ∧
    Text.isBlank (symbol n) = false ∧ String.utf8EncodeChar (symbol n) = [code n] := by
  decide +kernel

theorem ofNat_eq {n : Nat} {a : UInt8} (h : n % 256 = a.toNat) : UInt8.ofNat n = a :=
  UInt8.toNat_inj.1 h

/-- The values of the symbols that bytes are written with. -/
def sextets : Bytes → List Nat
  | a :: b :: c :: rest =>
    let n := a.toNat * 65536 + b.toNat * 256 + c.toNat
    n / 262144 :: n / 4096 % 64 :: n / 64 % 64 :: n % 64 :: sextets rest
  | [a, b] =>
    let n := a.toNat * 1024 + b.toNat * 4
    [n / 4096, n / 64 % 64, n % 64]
  | [a] => [a.toNat / 4, a.toNat % 4 * 16]
  | [] => []

theorem sextets_lt (bs : Bytes) : ∀ n ∈ sextets bs, n < 64 := by
  induction bs using sextets.induct with
  | case1 a b c rest ih =>
    have ha := a.toNat_lt
    have hb := b.toNat_lt
    have hc := c.toNat_lt
    intro m hm
    simp only [sextets, List.mem_cons] at hm
    rcases hm with rfl | rfl | rfl | rfl | hm
    · omega
    · omega
    · omega
    · omega
    · exact ih m hm
  | case2 a b =>
    have ha := a.toNat_lt
    have hb := b.toNat_lt
    intro m hm
    simp only [sextets, List.mem_cons, List.not_mem_nil, or_false] at hm
    omega
  | case3 a =>
    have ha := a.toNat_lt
    intro m hm
    simp only [sextets, List.mem_cons, List.not_mem_nil, or_false] at hm
    omega
  | case4 => simp [sextets]

/-- The padding behind the symbols of `n` bytes. -/
def padding (n : Nat) : List Char := List.replicate ((3 - n % 3) % 3) '='

theorem encodeChars_eq (bs : Bytes) : encodeChars bs = (sextets bs).map symbol ++ padding bs.length := by
  induction bs using sextets.induct with
  | case1 a b c rest ih =>
    have length : padding (a :: b :: c :: rest).length = padding rest.length := by
      simp only [padding, List.length_cons]
      congr 1
      omega
    rw [encodeChars, sextets, ih, length]
    simp
  | case2 a b => simp [encodeChars, sextets, padding]
  | case3 a => simp [encodeChars, sextets, padding]
  | case4 => simp [encodeChars, sextets, padding]

theorem values_code (i : Nat) (ns : List Nat) (h : ∀ n ∈ ns, n < 64) : values i (ns.map code) = .ok ns := by
  induction ns generalizing i with
  | nil => rfl
  | cons n ns ih =>
    have value := (symbol_facts n (h n List.mem_cons_self)).1
    have rest := ih (i + 1) fun m hm => h m (List.mem_cons_of_mem n hm)
    simp only [List.map_cons, values, value, rest]
    rfl

theorem joinGroups_sextets (bs : Bytes) (h : bs.length % 3 = 0) : joinGroups (sextets bs) = bs := by
  induction bs using sextets.induct with
  | case1 a b c rest ih =>
    have ha := a.toNat_lt
    have hb := b.toNat_lt
    have hc := c.toNat_lt
    have others : joinGroups (sextets rest) = rest := by
      apply ih
      simp only [List.length_cons] at h
      omega
    simp only [sextets, joinGroups, others]
    congr 1
    · exact ofNat_eq (by omega)
    · congr 1
      · exact ofNat_eq (by omega)
      · congr 1
        exact ofNat_eq (by omega)
  | case2 a b => simp at h
  | case3 a => simp at h
  | case4 => rfl

theorem lastValues_pads (i k n : Nat) (padAt : Option Nat) (h : n ≠ 0 → 2 ≤ k) :
    lastValues i k padAt (List.replicate n pad) = .ok ([], n) := by
  induction n generalizing k padAt with
  | zero => rfl
  | succ n ih =>
    have enough : ¬ k < 2 := by
      have := h (Nat.succ_ne_zero n)
      omega
    have rest := ih (k + 1) (padAt.or (some k)) (by omega)
    simp only [List.replicate_succ, lastValues, if_true, if_neg enough, rest]
    rfl

theorem lastValues_code (i k n : Nat) (ns : List Nat) (h : ∀ m ∈ ns, m < 64)
    (enough : n ≠ 0 → 2 ≤ k + ns.length) :
    lastValues i k none (ns.map code ++ List.replicate n pad) = .ok (ns, n) := by
  induction ns generalizing k with
  | nil => exact lastValues_pads i k n none enough
  | cons m ns ih =>
    obtain ⟨value, symbol, _⟩ := symbol_facts m (h m List.mem_cons_self)
    have rest := ih (k + 1) (fun l hl => h l (List.mem_cons_of_mem m hl)) (by
      simp only [List.length_cons] at enough
      omega)
    simp only [List.map_cons, List.cons_append, lastValues, if_neg symbol, value, rest]
    rfl

theorem decodeLast_eq {i n : Nat} {group : Bytes} {vs : List Nat}
    (read : lastValues i 0 none group = .ok (vs, n)) (two : 2 ≤ vs.length) (full : (vs.length + n) % 4 = 0)
    (unused : vs.getLastD 0 % (if vs.length = 2 then 16 else if vs.length = 3 then 4 else 1) = 0) :
    decodeLast i group = .ok ((joinGroups (vs ++ [0, 0])).take (vs.length * 6 / 8)) := by
  have short : ¬ vs.length < 2 := by omega
  rw [decodeLast, read]
  change (if vs.length < 2 then _ else _) = _
  rw [if_neg short, if_neg (by simpa using full)]
  exact if_neg (by simpa using unused)

/-- One to three bytes are a last group. -/
theorem decodeLast_code (i : Nat) (bs : Bytes) (some : bs ≠ []) (few : bs.length ≤ 3) :
    decodeLast i ((sextets bs).map code ++ List.replicate ((3 - bs.length % 3) % 3) pad) = .ok bs := by
  have read (n : Nat) (enough : n ≠ 0 → 2 ≤ (sextets bs).length) :=
    lastValues_code i 0 n (sextets bs) (sextets_lt bs) (by simpa using enough)
  match bs, some, few with
  | [a], _, _ =>
    have ha := a.toNat_lt
    refine (decodeLast_eq (read 2 (by simp [sextets])) (by simp [sextets]) (by simp [sextets])
      (by simp [sextets])).trans ?_
    simp only [sextets, joinGroups, List.cons_append, List.nil_append, List.length_cons, List.length_nil,
      Nat.reduceAdd, Nat.reduceMul, Nat.reduceDiv, List.take_succ_cons, List.take_zero, Except.ok.injEq,
      List.cons.injEq, and_true]
    exact ofNat_eq (by omega)
  | [a, b], _, _ =>
    have ha := a.toNat_lt
    have hb := b.toNat_lt
    refine (decodeLast_eq (read 1 (by simp [sextets])) (by simp [sextets]) (by simp [sextets])
      (by simp [sextets]; omega)).trans ?_
    simp only [sextets, joinGroups, List.cons_append, List.nil_append, List.length_cons, List.length_nil,
      Nat.reduceAdd, Nat.reduceMul, Nat.reduceDiv, List.take_succ_cons, List.take_zero, Except.ok.injEq,
      List.cons.injEq, and_true]
    exact ⟨ofNat_eq (by omega), ofNat_eq (by omega)⟩
  | [a, b, c], _, _ =>
    have ha := a.toNat_lt
    have hb := b.toNat_lt
    have hc := c.toNat_lt
    have pads : (3 - [a, b, c].length % 3) % 3 = 0 := by simp
    rw [pads, decodeLast_eq (read 0 (by simp)) (by simp [sextets]) (by simp [sextets])
      (by simp [sextets, Nat.mod_one])]
    simp only [sextets, joinGroups, List.cons_append, List.nil_append, List.length_cons, List.length_nil,
      Nat.reduceAdd, Nat.reduceMul, Nat.reduceDiv, List.take_succ_cons, List.take_zero, Except.ok.injEq,
      List.cons.injEq, and_true]
    exact ⟨ofNat_eq (by omega), ofNat_eq (by omega), ofNat_eq (by omega)⟩

theorem utf8_symbols (ns : List Nat) (h : ∀ n ∈ ns, n < 64) : Text.utf8 (ns.map symbol) = ns.map code := by
  induction ns with
  | nil => rfl
  | cons n ns ih =>
    have head := (symbol_facts n (h n List.mem_cons_self)).2.2.2
    have rest := ih fun m hm => h m (List.mem_cons_of_mem n hm)
    simp only [Text.utf8, List.map_cons, List.flatMap_cons, head] at rest ⊢
    rw [rest]
    rfl

/-- The written form of bytes: the codes of their symbols, and padding. -/
theorem utf8_encodeChars (bs : Bytes) :
    Text.utf8 (encodeChars bs) = (sextets bs).map code ++ List.replicate ((3 - bs.length % 3) % 3) pad := by
  have pads (n : Nat) : Text.utf8 (List.replicate n '=') = List.replicate n pad := by
    induction n with
    | zero => rfl
    | succ n ih =>
      simp only [Text.utf8, List.replicate_succ, List.flatMap_cons] at ih ⊢
      rw [ih]
      rfl
  have symbols := utf8_symbols (sextets bs) (sextets_lt bs)
  rw [encodeChars_eq, padding, ← pads, ← symbols, Text.utf8, List.flatMap_append]
  rfl

theorem encodeChars_append (front last : Bytes) (h : front.length % 3 = 0) :
    encodeChars (front ++ last) = encodeChars front ++ encodeChars last := by
  induction front using sextets.induct with
  | case1 a b c rest ih =>
    have others := ih (by
      simp only [List.length_cons] at h
      omega)
    simp only [List.cons_append, encodeChars, others]
  | case2 a b => simp at h
  | case3 a => simp at h
  | case4 => simp [encodeChars]

theorem length_sextets (bs : Bytes) (h : bs.length % 3 = 0) : (sextets bs).length % 4 = 0 := by
  induction bs using sextets.induct with
  | case1 a b c rest ih =>
    have others := ih (by
      simp only [List.length_cons] at h
      omega)
    simp only [sextets, List.length_cons]
    omega
  | case2 a b => simp at h
  | case3 a => simp at h
  | case4 => rfl

theorem length_last (bs : Bytes) (some : bs ≠ []) (few : bs.length ≤ 3) :
    (sextets bs).length + (3 - bs.length % 3) % 3 = 4 := by
  match bs, some, few with
  | [a], _, _ => simp [sextets]
  | [a, b], _, _ => simp [sextets]
  | [a, b, c], _, _ => simp [sextets]

/-- Complete groups, and a last one, which is the only one that can be padded. -/
theorem decode_groups (front last : Bytes) (threes : front.length % 3 = 0) (some : last ≠ [])
    (few : last.length ≤ 3) : decode (Text.utf8 (encodeChars (front ++ last))) = .ok (front ++ last) := by
  have whole : Text.utf8 (encodeChars front) = (sextets front).map code := by
    rw [utf8_encodeChars, threes]
    exact List.append_nil _
  have text : Text.utf8 (encodeChars (front ++ last)) =
      (sextets front).map code ++ Text.utf8 (encodeChars last) := by
    rw [encodeChars_append _ _ threes, ← whole]
    exact List.flatMap_append
  have four : (Text.utf8 (encodeChars last)).length = 4 := by
    rw [utf8_encodeChars, List.length_append, List.length_map, List.length_replicate]
    exact length_last last some few
  have fours : ((sextets front).map code).length % 4 = 0 := by
    rw [List.length_map]
    exact length_sextets front threes
  have read := values_code 0 (sextets front) (sextets_lt front)
  have back := decodeLast_code ((sextets front).map code).length last some few
  rw [← utf8_encodeChars] at back
  rw [text]
  generalize (sextets front).map code = before at *
  generalize Text.utf8 (encodeChars last) = after at *
  have rest : (before ++ after).length % 4 = 0 := by
    rw [List.length_append]
    omega
  have nonempty : (before ++ after).isEmpty = false := by
    rw [List.isEmpty_eq_false_iff]
    apply List.ne_nil_of_length_pos
    rw [List.length_append]
    omega
  have start : (before ++ after).length - 4 = before.length := by
    rw [List.length_append]
    omega
  simp only [decode, nonempty, rest, start, if_true, List.take_left, List.drop_left, read, back]
  exact congrArg (fun bs => Except.ok (bs ++ last)) (joinGroups_sextets front threes)

/-- Decoding undoes encoding. -/
theorem decode_encodeChars (bs : Bytes) : decode (Text.utf8 (encodeChars bs)) = .ok bs := by
  by_cases empty : bs = []
  · rw [empty]
    rfl
  have pos : 0 < bs.length := List.length_pos_iff.2 empty
  have groups := decode_groups (bs.take ((bs.length - 1) / 3 * 3)) (bs.drop ((bs.length - 1) / 3 * 3))
    (by rw [List.length_take]; omega)
    (by apply List.ne_nil_of_length_pos; rw [List.length_drop]; omega)
    (by rw [List.length_drop]; omega)
  rwa [List.take_append_drop] at groups

theorem decode_encode (bs : Bytes) : decode (Text.utf8 (encode bs).toList) = .ok bs := by
  rw [encode, String.toList_ofList, decode_encodeChars]

/-- A written form has no blanks. -/
theorem not_isBlank_of_mem {bs : Bytes} {c : Char} (h : c ∈ encodeChars bs) : Text.isBlank c = false := by
  rw [encodeChars_eq] at h
  rcases List.mem_append.1 h with h | h
  · obtain ⟨n, hn, rfl⟩ := List.mem_map.1 h
    exact (symbol_facts n (sextets_lt bs n hn)).2.2.1
  · rw [List.eq_of_mem_replicate h]
    decide

end Randomness.Base64
