import Randomness.Document
import Randomness.Text.Hex

/-!
Documents in their written form. A text is read as a whole or not at all: control characters inside
strings, a byte order mark and anything behind the document are refused.
-/

namespace Randomness.Document.Parser

def isSpace (c : Char) : Bool := c = ' ' || c = '\t' || c = '\n' || c = '\r'

def skipSpace (cs : List Char) : List Char := cs.dropWhile isSpace

def isDigit (c : Char) : Bool := '0' ≤ c && c ≤ '9'

/-- A code unit of four hexadecimal digits. -/
def unit? : List Char → Option (Nat × List Char)
  | a :: b :: c :: d :: cs => do
    return (((← Hex.digit? a) * 16 + (← Hex.digit? b)) * 256 + (← Hex.digit? c) * 16 + (← Hex.digit? d), cs)
  | _ => none

def isHigh (u : Nat) : Bool := 0xd800 ≤ u && u < 0xdc00
def isLow (u : Nat) : Bool := 0xdc00 ≤ u && u < 0xe000

def simpleEscape? : Char → Option Char
  | '"' => some '"'
  | '\\' => some '\\'
  | '/' => some '/'
  | 'b' => some '\x08'
  | 'f' => some '\x0c'
  | 'n' => some '\n'
  | 'r' => some '\r'
  | 't' => some '\t'
  | _ => none

/-- The code unit that follows at once as an escape. -/
def nextUnit? : List Char → Option (Nat × List Char)
  | '\\' :: 'u' :: cs => unit? cs
  | _ => none

/-- The character of an escape whose first code unit is `u`, and what follows it; a unit that makes
no character is dropped alone. -/
def joinUnits (u : Nat) (cs : List Char) : Option Char × List Char :=
  if isHigh u then
    match nextUnit? cs with
    | some (v, rest) =>
      if isLow v then (some (Char.ofNat (0x10000 + (u - 0xd800) * 0x400 + (v - 0xdc00))), rest)
      else (none, cs)
    | none => (none, cs)
  else if isLow u then (none, cs)
  else (some (Char.ofNat u), cs)

/-- The characters up to the closing quote, and what follows it. -/
def characters : Nat → List Char → Option (Option (List Char) × List Char)
  | 0, _ => none
  | _, [] => none
  | _ + 1, '"' :: cs => some (some [], cs)
  | n + 1, '\\' :: 'u' :: cs => do
    let (u, cs) ← unit? cs
    let (c, cs) := joinUnits u cs
    let (more, cs) ← characters n cs
    return (c.bind fun c => more.map (c :: ·), cs)
  | n + 1, '\\' :: e :: cs => do
    let c ← simpleEscape? e
    let (more, cs) ← characters n cs
    return (more.map (c :: ·), cs)
  | n + 1, c :: cs =>
    if c = '\\' ∨ c.toNat < 0x20 then none
    else do
      let (more, cs) ← characters n cs
      return (more.map (c :: ·), cs)

/-- A string whose opening quote is read. -/
def string? (cs : List Char) : Option (Option String × List Char) :=
  (characters (cs.length + 1) cs).map fun (s, cs) => (s.map String.ofList, cs)

/-- At least one digit. -/
def digits? (cs : List Char) : Option (List Char × List Char) :=
  match cs.takeWhile isDigit with
  | [] => none
  | ds => some (ds, cs.dropWhile isDigit)

/-- Digits without a leading zero. -/
def whole? : List Char → Option (List Char × List Char)
  | '0' :: cs => if (cs.takeWhile isDigit).isEmpty then some (['0'], cs) else none
  | cs => digits? cs

def fraction? : List Char → Option (List Char × List Char)
  | '.' :: cs => (digits? cs).map fun (ds, cs) => ('.' :: ds, cs)
  | cs => some ([], cs)

def exponent? : List Char → Option (List Char × List Char)
  | e :: cs =>
    if e = 'e' ∨ e = 'E' then
      match cs with
      | s :: ds =>
        if s = '+' ∨ s = '-' then (digits? ds).map fun (ds, cs) => (e :: s :: ds, cs)
        else (digits? cs).map fun (ds, cs) => (e :: ds, cs)
      | [] => none
    else some ([], e :: cs)
  | [] => some ([], [])

def natOf (ds : List Char) : Nat := ds.foldl (fun n c => n * 10 + (c.toNat - '0'.toNat)) 0

def number? (cs : List Char) : Option (Document × List Char) := do
  let (sign, cs) := match cs with
    | '-' :: cs => (['-'], cs)
    | cs => ([], cs)
  let (ds, cs) ← whole? cs
  let (f, cs) ← fraction? cs
  let (e, cs) ← exponent? cs
  let n := natOf ds
  if f.isEmpty && e.isEmpty && (sign.isEmpty || n != 0) then
    return (.integer (if sign.isEmpty then n else -n), cs)
  else return (.real (String.ofList (sign ++ ds ++ f ++ e)), cs)

mutual

/-- A document at the start of a text, and what follows it. The first argument bounds the number of
steps. -/
def document? : Nat → List Char → Option (Document × List Char)
  | 0, _ => none
  | n + 1, cs => match skipSpace cs with
    | 'n' :: 'u' :: 'l' :: 'l' :: cs => some (.null, cs)
    | 't' :: 'r' :: 'u' :: 'e' :: cs => some (.bool true, cs)
    | 'f' :: 'a' :: 'l' :: 's' :: 'e' :: cs => some (.bool false, cs)
    | '"' :: cs => (string? cs).map fun (s, cs) => (.string s, cs)
    | '[' :: cs => match skipSpace cs with
      | ']' :: cs => some (.array [], cs)
      | cs => (items? n cs).map fun (ds, cs) => (.array ds, cs)
    | '\x7b' :: cs => match skipSpace cs with
      | '\x7d' :: cs => some (.object [], cs)
      | cs => (members? n cs).map fun (ms, cs) => (.object ms, cs)
    | cs => number? cs

/-- The items up to the closing bracket. -/
def items? : Nat → List Char → Option (List Document × List Char)
  | 0, _ => none
  | n + 1, cs => do
    let (d, cs) ← document? n cs
    match skipSpace cs with
    | ']' :: cs => return ([d], cs)
    | ',' :: cs =>
      let (ds, cs) ← items? n cs
      return (d :: ds, cs)
    | _ => none

/-- The members up to the closing brace. -/
def members? : Nat → List Char → Option (List (Option String × Document) × List Char)
  | 0, _ => none
  | n + 1, cs => match skipSpace cs with
    | '"' :: cs => do
      let (k, cs) ← string? cs
      match skipSpace cs with
      | ':' :: cs =>
        let (d, cs) ← document? n cs
        match skipSpace cs with
        | '\x7d' :: cs => return ([(k, d)], cs)
        | ',' :: cs =>
          let (ms, cs) ← members? n cs
          return ((k, d) :: ms, cs)
        | _ => none
      | _ => none
    | _ => none

end

end Randomness.Document.Parser

namespace Randomness.Document

/-- The document that a text is the written form of. No step leaves more than twice as many steps as
there are characters. -/
def parse? (s : String) : Option Document :=
  let cs := s.toList
  match Parser.document? (2 * cs.length + 2) cs with
  | some (d, rest) => if (Parser.skipSpace rest).isEmpty then some d else none
  | none => none

end Randomness.Document
