import Randomness.Codec

/-!
Formats of any width. A format writes values as byte strings, and takes off the front of a string exactly what it
writes. So its values tell their own end, and formats can stand one behind another without their lengths.
-/

namespace Randomness

structure Format (α : Type) where
  write : α → Bytes
  /-- A value from the front of a string, and what follows it. -/
  take? : Bytes → Option (α × Bytes)
  take?_eq_some_iff : ∀ {bs : Bytes} {a : α} {rest : Bytes}, take? bs = some (a, rest) ↔ bs = write a ++ rest

namespace Format

section

variable (f : Format α) {a b : α} {bs : Bytes}

theorem take?_write (a : α) (rest : Bytes) : f.take? (f.write a ++ rest) = some (a, rest) :=
  f.take?_eq_some_iff.2 rfl

/-- Nothing that is written is the start of anything else that is written. -/
theorem prefix_write_iff : f.write a <+: f.write b ↔ a = b := by
  constructor
  · rintro ⟨rest, h⟩
    have whole := f.take?_write b []
    rw [List.append_nil, ← h, f.take?_write] at whole
    exact congrArg Prod.fst (Option.some.inj whole)
  · rintro rfl
    exact List.prefix_rfl

/-- The value that a whole string spells. -/
def read? (bs : Bytes) : Option α := (f.take? bs).bind fun (a, rest) => if rest = [] then some a else none

theorem read?_eq_some_iff : f.read? bs = some a ↔ bs = f.write a := by
  rw [read?, Option.bind_eq_some_iff]
  constructor
  · rintro ⟨⟨b, rest⟩, taken, whole⟩
    obtain ⟨rfl, same⟩ := Option.ite_none_right_eq_some.1 whole
    obtain rfl := Option.some.inj same
    rw [f.take?_eq_some_iff.1 taken, List.append_nil]
  · intro h
    refine ⟨(a, []), f.take?_eq_some_iff.2 ?_, rfl⟩
    rw [h, List.append_nil]

end

/-! ## Formats from formats -/

/-- A value behind fixed bytes. -/
def behind (f : Format α) (front : Bytes) : Format α where
  write a := front ++ f.write a
  take? bs := if bs.take front.length = front then f.take? (bs.drop front.length) else none
  take?_eq_some_iff := by
    intro bs a rest
    rw [Option.ite_none_right_eq_some, f.take?_eq_some_iff, List.append_assoc]
    constructor
    · rintro ⟨same, taken⟩
      rw [← List.take_append_drop front.length bs, same, taken]
    · rintro rfl
      exact ⟨List.take_left, List.drop_left⟩

theorem write_behind (f : Format α) (front : Bytes) (a : α) : (f.behind front).write a = front ++ f.write a := rfl

/-- Two values, one after the other. -/
def pair (f : Format α) (g : Format β) : Format (α × β) where
  write ab := f.write ab.1 ++ g.write ab.2
  take? bs := do
    let (a, bs) ← f.take? bs
    let (b, bs) ← g.take? bs
    return ((a, b), bs)
  take?_eq_some_iff := by
    intro bs ab rest
    obtain ⟨a, b⟩ := ab
    simp only [Option.bind_eq_bind, Option.bind_eq_some_iff, Prod.exists, f.take?_eq_some_iff,
      g.take?_eq_some_iff, List.append_assoc]
    constructor
    · rintro ⟨a', bs', rfl, b', bs'', rfl, made⟩
      cases made
      rfl
    · rintro rfl
      exact ⟨a, _, rfl, b, _, rfl, rfl⟩

theorem write_pair (f : Format α) (g : Format β) (ab : α × β) :
    (f.pair g).write ab = f.write ab.1 ++ g.write ab.2 := rfl

/-- A value that may be absent: a zero byte, or a one byte and the value. -/
def optional (f : Format α) : Format (Option α) where
  write
    | none => [0]
    | some a => 1 :: f.write a
  take?
    | [] => none
    | b :: bs => if b = 0 then some (none, bs) else if b = 1 then (f.take? bs).map fun (a, bs) => (some a, bs) else none
  take?_eq_some_iff := by
    intro bs a rest
    cases bs with
    | nil => cases a <;> simp
    | cons b bs =>
      by_cases absent : b = 0
      · subst absent
        cases a <;> simp [eq_comm]
      · by_cases there : b = 1
        · subst there
          cases a <;> simp [f.take?_eq_some_iff]
        · cases a <;> simp [absent, there]

/-- A value by what it is made of. -/
def of (f : Format β) (parts : α → β) (make? : β → Option α) (exact : ∀ {b a}, make? b = some a ↔ b = parts a) :
    Format α where
  write a := f.write (parts a)
  take? bs := do
    let (b, bs) ← f.take? bs
    return (← make? b, bs)
  take?_eq_some_iff := by
    intro bs a rest
    simp only [Option.bind_eq_bind, Option.bind_eq_some_iff, Prod.exists, f.take?_eq_some_iff, exact]
    constructor
    · rintro ⟨b, bs', rfl, a', rfl, made⟩
      cases made
      rfl
    · rintro rfl
      exact ⟨_, _, rfl, a, rfl, rfl⟩

end Format

/-- A codec as a format. -/
def Codec.format (c : Codec α) : Format α where
  write := c.encode
  take? bs := if h : c.width ≤ bs.length then
      some (c.read (bs.slice 0 c.width (by omega)), bs.drop c.width) else none
  take?_eq_some_iff := by
    intro bs a rest
    constructor
    · intro taken
      obtain ⟨long, taken⟩ := Option.dite_none_right_eq_some.1 taken
      obtain ⟨rfl, rfl⟩ := Prod.mk.inj (Option.some.inj taken)
      rw [Codec.encode, c.write_read]
      exact (List.take_append_drop ..).symm
    · rintro rfl
      have width := c.length_encode a
      have long : c.width ≤ (c.encode a ++ rest).length := by
        rw [List.length_append]
        omega
      have front : Bytes.slice (c.encode a ++ rest) 0 c.width (by omega) = c.write a := by
        ext1
        exact List.take_left' width
      rw [dif_pos long, front, c.read_write, List.drop_left' width]

theorem Codec.write_optional_format (c : Codec α) (a : Option α) : c.format.optional.write a = c.encodeOption a := by
  cases a <;> rfl

end Randomness
