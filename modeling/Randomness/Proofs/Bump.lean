import Randomness.Derivation

/-!
The bump of an address: the largest one from 255 down to 1 whose hash is no point of the curve. The seeds are checked
before the search, so that within it only points of the curve are passed over.
-/

namespace Randomness.Derivation

/-- Seeds that are few and short enough to have a bump behind them. -/
structure Admissible (seeds : List Bytes) : Prop where
  few : seeds.length < maxSeeds
  short : ∀ s ∈ seeds, s.length ≤ maxSeedLength

/-- The seed at position `i` is too long, by its `n` bytes, and those before it are not. -/
structure FirstLong (seeds : List Bytes) (i n : Nat) : Prop where
  long : maxSeedLength < n
  at_position : ∃ s, seeds[i]? = some s ∧ s.length = n
  before : ∀ j < i, ∀ s, seeds[j]? = some s → s.length ≤ maxSeedLength

theorem findLong_eq_none_iff {i : Nat} {seeds : List Bytes} :
    findLong i seeds = none ↔ ∀ s ∈ seeds, s.length ≤ maxSeedLength := by
  induction seeds generalizing i with
  | nil => simp [findLong]
  | cons s seeds ih =>
    rw [findLong]
    by_cases long : s.length > maxSeedLength
    · simp only [long, if_true, reduceCtorEq, List.mem_cons, forall_eq_or_imp, false_iff, not_and]
      omega
    · simp [long, ih, Nat.le_of_not_lt long]

theorem firstLong_cons_succ {s : Bytes} {seeds : List Bytes} {i n : Nat} (short : s.length ≤ maxSeedLength) :
    FirstLong (s :: seeds) (i + 1) n ↔ FirstLong seeds i n := by
  constructor
  · intro h
    exact ⟨h.long, by simpa using h.at_position, fun j hj t ht => h.before (j + 1) (by omega) t (by simpa using ht)⟩
  · intro h
    refine ⟨h.long, by simpa using h.at_position, fun j hj t ht => ?_⟩
    cases j with
    | zero =>
      simp only [List.getElem?_cons_zero, Option.some.injEq] at ht
      rwa [← ht]
    | succ j => exact h.before j (by omega) t (by simpa using ht)

theorem findLong_eq_some_iff {i k n : Nat} {seeds : List Bytes} :
    findLong i seeds = some (k, n) ↔ ∃ j, k = i + j ∧ FirstLong seeds j n := by
  induction seeds generalizing i with
  | nil =>
    simp only [findLong, reduceCtorEq, false_iff]
    rintro ⟨j, _, h⟩
    simpa using h.at_position
  | cons s seeds ih =>
    rw [findLong]
    by_cases long : s.length > maxSeedLength
    · simp only [long, if_true, Option.some.injEq, Prod.mk.injEq]
      constructor
      · rintro ⟨rfl, rfl⟩
        exact ⟨0, rfl, long, ⟨s, rfl, rfl⟩, by simp⟩
      · rintro ⟨j, rfl, h⟩
        cases j with
        | zero => simpa using h.at_position
        | succ j =>
          have first := h.before 0 (by omega) s rfl
          omega
    · simp only [long, if_false, ih]
      constructor
      · rintro ⟨j, rfl, h⟩
        exact ⟨j + 1, by omega, (firstLong_cons_succ (by omega)).2 h⟩
      · rintro ⟨j, rfl, h⟩
        cases j with
        | zero =>
          obtain ⟨t, here, size⟩ := h.at_position
          have bound := h.long
          simp only [List.getElem?_cons_zero, Option.some.injEq] at here
          subst here
          omega
        | succ j => exact ⟨j, by omega, (firstLong_cons_succ (by omega)).1 h⟩

variable {seeds : List Bytes} {program a a' : Address} {b b' : UInt8} {n : Nat}

theorem FirstLong.unique {i j m : Nat} (h : FirstLong seeds i n) (h' : FirstLong seeds j m) : i = j ∧ n = m := by
  have found := findLong_eq_some_iff.2 ⟨i, (Nat.zero_add i).symm, h⟩
  have found' := findLong_eq_some_iff.2 ⟨j, (Nat.zero_add j).symm, h'⟩
  exact Prod.mk.inj (Option.some.inj (found.symm.trans found'))

theorem Admissible.not_firstLong (fine : Admissible seeds) (i n : Nat) : ¬ FirstLong seeds i n := by
  intro h
  obtain ⟨s, here, rfl⟩ := h.at_position
  exact Nat.not_le.2 h.long (fine.short s (List.mem_of_getElem? here))

/-- The bump is one byte long, so it is never what is wrong with the seeds. -/
theorem admissible_iff : Admissible seeds ↔ ¬ (seeds ++ [[b]]).length > maxSeeds ∧
    ¬ ((seeds ++ [[b]]).any fun s => s.length > maxSeedLength) = true := by
  have count : ¬ (seeds ++ [[b]]).length > maxSeeds ↔ seeds.length < maxSeeds := by
    rw [List.length_append, List.length_singleton]
    omega
  have sizes : ¬ ((seeds ++ [[b]]).any fun s => s.length > maxSeedLength) = true ↔
      ∀ s ∈ seeds, s.length ≤ maxSeedLength := by
    simp [maxSeedLength]
  rw [count, sizes]
  exact ⟨fun h => ⟨h.few, h.short⟩, fun h => ⟨h.1, h.2⟩⟩

theorem ofNat_succ_ne_zero (byte : n + 1 < 256) : UInt8.ofNat (n + 1) ≠ 0 := by
  have last : (UInt8.ofNat (n + 1)).toNat = n + 1 := UInt8.toNat_ofNat_of_lt byte
  intro zero
  rw [zero] at last
  simp at last

/-- Up to `n + 1` there is one more bump than up to `n`. -/
theorem toNat_le_succ_iff (byte : n + 1 < 256) {c : UInt8} :
    c.toNat ≤ n + 1 ↔ c = UInt8.ofNat (n + 1) ∨ c.toNat ≤ n := by
  have last : (UInt8.ofNat (n + 1)).toNat = n + 1 := UInt8.toNat_ofNat_of_lt byte
  rw [← UInt8.toNat_inj, last]
  omega

variable [Crypto]

/-- With this bump the hash is a point of the curve. -/
def OnCurve (seeds : List Bytes) (program : Address) (bump : UInt8) : Prop :=
  Crypto.isOnCurve (Crypto.hash (preimage seeds bump program)) = true

/-- The largest of the bumps from 1 to `n` with a hash that is no point of the curve, and this hash. -/
structure Canonical (seeds : List Bytes) (program : Address) (n : Nat) (a : Address) (b : UInt8) : Prop where
  tried : b ≠ 0 ∧ b.toNat ≤ n
  hash : Crypto.hash (preimage seeds b program) = a
  off : ¬ OnCurve seeds program b
  larger : ∀ c, b < c → c.toNat ≤ n → OnCurve seeds program c

theorem Canonical.unique (h : Canonical seeds program n a b) (h' : Canonical seeds program n a' b') :
    a = a' ∧ b = b' := by
  have same : b = b' := by
    rcases Nat.lt_trichotomy b.toNat b'.toNat with less | equal | more
    · exact absurd (h.larger b' (UInt8.lt_iff_toNat_lt.2 less) h'.tried.2) h'.off
    · exact UInt8.toNat_inj.1 equal
    · exact absurd (h'.larger b (UInt8.lt_iff_toNat_lt.2 more) h.tried.2) h.off
  subst same
  exact ⟨h.hash.symm.trans h'.hash, rfl⟩

theorem create_of_admissible (h : Admissible seeds) : create (seeds ++ [[b]]) program =
    if Crypto.isOnCurve (Crypto.hash (preimage seeds b program)) then .error .onCurve
    else .ok (Crypto.hash (preimage seeds b program)) := by
  obtain ⟨few, short⟩ := (admissible_iff (b := b)).1 h
  have hashed : (seeds ++ [[b]]).flatten ++ program.bytes ++ marker = preimage seeds b program := by
    simp [preimage]
  rw [create, if_neg few, if_neg short, hashed]

theorem create_eq_lengthExceeded_iff :
    create (seeds ++ [[b]]) program = .error .lengthExceeded ↔ ¬ Admissible seeds := by
  constructor
  · intro h fine
    rw [create_of_admissible fine] at h
    split at h <;> cases h
  · intro bad
    rw [create]
    split
    · rfl
    · next few =>
      split
      · rfl
      · next short => exact absurd (admissible_iff.2 ⟨few, short⟩) bad

/-- The bump `n + 1` is returned or, if it leads to a point of the curve, passed over. -/
theorem search_succ (h : Admissible seeds) (program : Address) (n : Nat) :
    (OnCurve seeds program (UInt8.ofNat (n + 1)) ∧ search seeds program (n + 1) = search seeds program n) ∨
    (¬ OnCurve seeds program (UInt8.ofNat (n + 1)) ∧ search seeds program (n + 1) =
      some (Crypto.hash (preimage seeds (UInt8.ofNat (n + 1)) program), UInt8.ofNat (n + 1))) := by
  by_cases on : OnCurve seeds program (UInt8.ofNat (n + 1))
  · have point := on
    rw [OnCurve] at point
    exact .inl ⟨on, by simp only [search, create_of_admissible h, point, if_true]⟩
  · have point := on
    rw [OnCurve] at point
    exact .inr ⟨on, by simp only [search, create_of_admissible h, point, if_false, Bool.false_eq_true]⟩

theorem search_eq_some_iff (h : Admissible seeds) (byte : n < 256) :
    search seeds program n = some (a, b) ↔ Canonical seeds program n a b := by
  induction n with
  | zero =>
    simp only [search, reduceCtorEq, false_iff]
    intro found
    exact found.tried.1 (UInt8.toNat_inj.1 (Nat.le_zero.1 found.tried.2))
  | succ n ih =>
    have last : (UInt8.ofNat (n + 1)).toNat = n + 1 := UInt8.toNat_ofNat_of_lt byte
    rcases search_succ h program n with ⟨on, passed⟩ | ⟨off, found⟩
    · rw [passed, ih (by omega)]
      constructor
      · intro found
        refine ⟨⟨found.tried.1, by have := found.tried.2; omega⟩, found.hash, found.off, fun c above within => ?_⟩
        rcases (toNat_le_succ_iff byte).1 within with rfl | within
        · exact on
        · exact found.larger c above within
      · intro found
        have other : b.toNat ≤ n := by
          rcases (toNat_le_succ_iff byte).1 found.tried.2 with rfl | within
          · exact absurd on found.off
          · exact within
        exact ⟨⟨found.tried.1, other⟩, found.hash, found.off, fun c above within => found.larger c above (by omega)⟩
    · rw [found]
      have canonical : Canonical seeds program (n + 1)
          (Crypto.hash (preimage seeds (UInt8.ofNat (n + 1)) program)) (UInt8.ofNat (n + 1)) := by
        refine ⟨⟨ofNat_succ_ne_zero byte, by omega⟩, rfl, off, fun c above within => ?_⟩
        rw [UInt8.lt_iff_toNat_lt, last] at above
        omega
      constructor
      · intro same
        obtain ⟨rfl, rfl⟩ := Prod.mk.inj (Option.some.inj same)
        exact canonical
      · intro other
        obtain ⟨rfl, rfl⟩ := canonical.unique other
        rfl

theorem search_eq_none_iff (h : Admissible seeds) (byte : n < 256) :
    search seeds program n = none ↔ ∀ c : UInt8, c ≠ 0 → c.toNat ≤ n → OnCurve seeds program c := by
  induction n with
  | zero =>
    simp only [search, true_iff]
    intro c positive small
    exact absurd (UInt8.toNat_inj.1 (Nat.le_zero.1 small)) positive
  | succ n ih =>
    have last : (UInt8.ofNat (n + 1)).toNat = n + 1 := UInt8.toNat_ofNat_of_lt byte
    rcases search_succ h program n with ⟨on, passed⟩ | ⟨off, found⟩
    · rw [passed, ih (by omega)]
      constructor
      · intro all c positive within
        rcases (toNat_le_succ_iff byte).1 within with rfl | within
        · exact on
        · exact all c positive within
      · exact fun all c positive within => all c positive (by omega)
    · rw [found]
      simp only [reduceCtorEq, false_iff]
      exact fun all => off (all _ (ofNat_succ_ne_zero byte) (by omega))

/-- The number of seeds is checked first, then their lengths, and only then are bumps tried. -/
theorem derive_cases (seeds : List Bytes) (program : Address) :
    (maxSeeds ≤ seeds.length ∧ derive seeds program = .error (.tooManySeeds seeds.length 15)) ∨
    (seeds.length < maxSeeds ∧ ∃ i n, FirstLong seeds i n ∧
      derive seeds program = .error (.seedTooLong i n maxSeedLength)) ∨
    Admissible seeds ∧ ((search seeds program 255 = none ∧ derive seeds program = .error (.noValidBump program)) ∨
      ∃ found, search seeds program 255 = some found ∧ derive seeds program = .ok found) := by
  unfold derive
  by_cases many : seeds.length ≥ maxSeeds
  · exact .inl ⟨many, if_pos many⟩
  · simp only [many, if_false]
    cases checked : findLong 0 seeds with
    | some found =>
      obtain ⟨i, n⟩ := found
      obtain ⟨j, rfl, long⟩ := findLong_eq_some_iff.1 checked
      exact .inr (.inl ⟨by omega, j, n, long, by rw [Nat.zero_add]⟩)
    | none =>
      refine .inr (.inr ⟨⟨by omega, findLong_eq_none_iff.1 checked⟩, ?_⟩)
      cases searched : search seeds program 255 with
      | none => exact .inl ⟨rfl, rfl⟩
      | some found => exact .inr ⟨found, rfl, rfl⟩

theorem derive_eq_tooManySeeds_iff {m : Nat} : derive seeds program = .error (.tooManySeeds n m) ↔
    16 ≤ seeds.length ∧ n = seeds.length ∧ m = 15 := by
  rcases derive_cases seeds program with ⟨many, same⟩ | ⟨few, _, _, _, same⟩ | ⟨fine, ⟨_, same⟩ | ⟨_, _, same⟩⟩
  · rw [same]
    simp only [Except.error.injEq, DerivationError.tooManySeeds.injEq]
    constructor
    · rintro ⟨rfl, rfl⟩
      exact ⟨many, rfl, rfl⟩
    · rintro ⟨_, rfl, rfl⟩
      exact ⟨rfl, rfl⟩
  · have few : ¬ 16 ≤ seeds.length := Nat.not_le.2 few
    simp [same, few]
  all_goals
    have few : ¬ 16 ≤ seeds.length := Nat.not_le.2 fine.few
    simp [same, few]

theorem derive_eq_seedTooLong_iff {i m : Nat} : derive seeds program = .error (.seedTooLong i n m) ↔
    seeds.length < 16 ∧ FirstLong seeds i n ∧ m = 32 := by
  rcases derive_cases seeds program with ⟨many, same⟩ | ⟨few, j, k, long, same⟩ | ⟨fine, ⟨_, same⟩ | ⟨_, _, same⟩⟩
  · have many : ¬ seeds.length < 16 := Nat.not_lt.2 many
    simp [same, many]
  · rw [same]
    simp only [Except.error.injEq, DerivationError.seedTooLong.injEq]
    constructor
    · rintro ⟨rfl, rfl, rfl⟩
      exact ⟨few, long, rfl⟩
    · rintro ⟨_, long', rfl⟩
      obtain ⟨rfl, rfl⟩ := long.unique long'
      exact ⟨rfl, rfl, rfl⟩
  all_goals simp [same, fine.not_firstLong]

theorem derive_eq_ok_iff :
    derive seeds program = .ok (a, b) ↔ Admissible seeds ∧ Canonical seeds program 255 a b := by
  rcases derive_cases seeds program with ⟨many, same⟩ | ⟨_, i, n, long, same⟩ | ⟨fine, outcome⟩
  · have bad : ¬ Admissible seeds := fun h => Nat.not_lt.2 many h.few
    simp [same, bad]
  · have bad : ¬ Admissible seeds := fun h => h.not_firstLong i n long
    simp [same, bad]
  · rw [← search_eq_some_iff fine (by omega)]
    rcases outcome with ⟨searched, same⟩ | ⟨_, searched, same⟩ <;> simp [searched, same, fine]

theorem derive_eq_noValidBump_iff {P : Address} : derive seeds program = .error (.noValidBump P) ↔
    Admissible seeds ∧ P = program ∧ ∀ b, b ≠ 0 → OnCurve seeds program b := by
  rcases derive_cases seeds program with ⟨many, same⟩ | ⟨_, i, n, long, same⟩ | ⟨fine, outcome⟩
  · have bad : ¬ Admissible seeds := fun h => Nat.not_lt.2 many h.few
    simp [same, bad]
  · have bad : ¬ Admissible seeds := fun h => h.not_firstLong i n long
    simp [same, bad]
  · have byte (b : UInt8) : b.toNat ≤ 255 := Nat.le_of_lt_succ b.toNat_lt
    have all : (∀ b, b ≠ 0 → OnCurve seeds program b) ↔ search seeds program 255 = none := by
      rw [search_eq_none_iff fine (by omega)]
      exact ⟨fun h b positive _ => h b positive, fun h b positive => h b positive (byte b)⟩
    rw [all]
    rcases outcome with ⟨searched, same⟩ | ⟨_, searched, same⟩ <;> simp [searched, same, fine, eq_comm]

/-- Which seeds have which address, and what is wrong with those that have none. The search itself has nothing to say
against seeds that come so far. -/
theorem derives_canonical_bump (seeds : List Bytes) (program : Address) :
    (∀ n m, derive seeds program = .error (.tooManySeeds n m) ↔ 16 ≤ seeds.length ∧ n = seeds.length ∧ m = 15) ∧
    (∀ i n m, derive seeds program = .error (.seedTooLong i n m) ↔
      seeds.length < 16 ∧ FirstLong seeds i n ∧ m = 32) ∧
    (∀ a b, derive seeds program = .ok (a, b) ↔ Admissible seeds ∧ Canonical seeds program 255 a b) ∧
    (∀ P, derive seeds program = .error (.noValidBump P) ↔
      Admissible seeds ∧ P = program ∧ ∀ b, b ≠ 0 → OnCurve seeds program b) ∧
    (∀ a b a' b', Canonical seeds program 255 a b → Canonical seeds program 255 a' b' → a = a' ∧ b = b') ∧
    ∀ b, create (seeds ++ [[b]]) program = .error .lengthExceeded ↔ ¬ Admissible seeds :=
  ⟨fun _ _ => derive_eq_tooManySeeds_iff, fun _ _ _ => derive_eq_seedTooLong_iff, fun _ _ => derive_eq_ok_iff,
    fun _ => derive_eq_noValidBump_iff, fun _ _ _ _ => Canonical.unique, fun _ => create_eq_lengthExceeded_iff⟩

end Randomness.Derivation
