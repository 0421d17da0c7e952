/-!
JSON documents as values, and readers of records in them.
-/

namespace Randomness

/-- A document. A text that holds half of a surrogate pair has no characters; it is `none`. -/
inductive Document where
  | null
  | bool (b : Bool)
  /-- A number without fraction and exponent; minus zero is none of these. -/
  | integer (n : Int)
  /-- Any other number, as it is written. -/
  | real (written : String)
  | string (s : Option String)
  | array (items : List Document)
  /-- Members in order. A name may occur more than once. -/
  | object (members : List (Option String × Document))

namespace Document

def text (s : String) : Document := string (some s)

def number (n : Nat) : Document := integer n

def record (members : List (String × Document)) : Document :=
  object (members.map fun (k, d) => (some k, d))

def ofOption (f : α → Document) (a : Option α) : Document := (a.map f).getD null

/-- Of members with one name the last. -/
def lastOfEach : List (String × Document) → List (String × Document)
  | [] => []
  | (k, d) :: ms => if ms.any (·.1 = k) then lastOfEach ms else (k, d) :: lastOfEach ms

/-- The document as a tree of values: every text has to have characters, a name stands for the last
of its members, and there are at most `depth` levels of arrays and objects. -/
def tree? : (depth : Nat) → Document → Option Document
  | _, string s => s.map text
  | 0, array _ | 0, object _ => none
  | depth + 1, array items => (items.mapM (tree? depth)).map array
  | depth + 1, object members =>
    (members.mapM fun (m : Option String × Document) => do
      return (← m.1, ← tree? depth m.2)).map fun ms => record (lastOfEach ms)
  | _, d => some d

/-- What an object holds under a name. -/
def member? (name : String) : Document → Option Document
  | object members => members.lookup (some name)
  | _ => none

/-! ## Readers -/

def bool? : Document → Option Bool
  | bool b => some b
  | _ => none

def text? : Document → Option String
  | string s => s
  | _ => none

/-- An integer from `low` up to, but not including, `high`. -/
def integer? (low high : Int) : Document → Option Int
  | integer n => if low ≤ n ∧ n < high then some n else none
  | _ => none

/-- A natural number below `size`. -/
def nat? (size : Nat) (d : Document) : Option Nat := (d.integer? 0 size).map Int.toNat

def u8? (d : Document) : Option UInt8 := (d.nat? UInt8.size).map UInt8.ofNat
def u32? (d : Document) : Option UInt32 := (d.nat? UInt32.size).map UInt32.ofNat
def u64? (d : Document) : Option UInt64 := (d.nat? UInt64.size).map UInt64.ofNat

/-- An integer that fits into 64 bits with its sign. -/
def int64? : Document → Option Int := integer? Int64.minValue.toInt (Int64.maxValue.toInt + 1)

def list? (read : Document → Option α) : Document → Option (List α)
  | array items => items.mapM read
  | _ => none

/-- What a record holds under each of its names. -/
abbrev Members := String → Option Document

/-- A record with members of these names: an object, in which each of them occurs at most once and
others may occur, or an array of all the members in the order of their names. -/
def record? (names : List String) : Document → Option Members
  | object members => do
    let known ← members.mapM fun (k, d) => k.map (·, d)
    if names.all fun n => (known.map Prod.fst).count n ≤ 1 then some (known.lookup ·) else none
  | array items => if items.length = names.length then some ((names.zip items).lookup ·) else none
  | _ => none

/-- A member that has to be there. -/
def required (read : Document → Option α) : Option Document → Option α
  | some d => read d
  | none => none

/-- A member that may be missing or null. -/
def optional (read : Document → Option α) : Option Document → Option (Option α)
  | none | some null => some none
  | some d => (read d).map some

/-- A value that may be null. -/
def nullable (read : Document → Option α) : Document → Option (Option α)
  | null => some none
  | d => (read d).map some

end Document

end Randomness
