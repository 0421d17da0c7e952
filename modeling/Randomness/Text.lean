import Randomness.Bytes

/-!
Text as lists of characters and as UTF-8 bytes.
-/

namespace Randomness.Text

/-- The characters of Unicode's `White_Space` property. -/
def isBlank (c : Char) : Bool :=
  let n := c.toNat
  (9 ≤ n && n ≤ 13) || n == 0x20 || n == 0x85 || n == 0xa0 || n == 0x1680 ||
    (0x2000 ≤ n && n ≤ 0x200a) || n == 0x2028 || n == 0x2029 || n == 0x202f || n == 0x205f || n == 0x3000

def trim (cs : List Char) : List Char :=
  ((cs.dropWhile isBlank).reverse.dropWhile isBlank).reverse

/-- What follows `p` at the start of `cs`. -/
def afterPrefix? : (p cs : List Char) → Option (List Char)
  | [], cs => some cs
  | _ :: _, [] => none
  | a :: p, c :: cs => if a = c then afterPrefix? p cs else none

theorem afterPrefix?_append (p cs : List Char) : afterPrefix? p (p ++ cs) = some cs := by
  induction p with
  | nil => rfl
  | cons a p ih => simp [afterPrefix?, ih]

theorem afterPrefix?_eq_some {p cs rest : List Char} (h : afterPrefix? p cs = some rest) :
    cs = p ++ rest := by
  induction p generalizing cs with
  | nil => simpa [afterPrefix?] using h
  | cons a p ih =>
    cases cs with
    | nil => simp [afterPrefix?] at h
    | cons c cs =>
      simp only [afterPrefix?] at h
      split at h
      · next e => rw [e, ih h, List.cons_append]
      · simp at h

/-- Whether `p` stands somewhere in a text. -/
def occurs (p : List Char) : List Char → Bool
  | [] => p.isEmpty
  | c :: cs => (afterPrefix? p (c :: cs)).isSome || occurs p cs

theorem isSome_afterPrefix?_iff {p cs : List Char} : (afterPrefix? p cs).isSome = true ↔ p <+: cs := by
  constructor
  · intro some
    obtain ⟨rest, h⟩ := Option.isSome_iff_exists.1 some
    exact ⟨rest, (afterPrefix?_eq_some h).symm⟩
  · rintro ⟨rest, rfl⟩
    rw [afterPrefix?_append]
    rfl

theorem occurs_iff {p cs : List Char} : occurs p cs = true ↔ p <:+: cs := by
  induction cs with
  | nil => simp [occurs]
  | cons c cs ih => rw [occurs, Bool.or_eq_true, isSome_afterPrefix?_iff, ih, List.infix_cons_iff]

/-- The pieces between the separators: one more than there are separators. -/
def pieces (sep : Char) : List Char → List (List Char)
  | [] => [[]]
  | c :: cs =>
    if c = sep then [] :: pieces sep cs
    else match pieces sep cs with
      | [] => [[c]]
      | p :: ps => (c :: p) :: ps

/-- The codes of ASCII characters. -/
def ascii (s : String) : Bytes := s.toList.map fun c => UInt8.ofNat c.toNat

def utf8 (cs : List Char) : Bytes := cs.flatMap String.utf8EncodeChar

end Randomness.Text
