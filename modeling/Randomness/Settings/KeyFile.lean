import Randomness.Crypto
import Randomness.Text.Numeral

/-!
Key files: a bracketed list of 64 numbers, a secret and the address that belongs to it, in a tree of
files.
-/

namespace Randomness

/-- Files by their paths, relative to one directory. -/
structure FileTree where
  files : List (String × String)
  /-- Directories that exist even without a file in them. -/
  directories : List String

namespace FileTree

inductive Fault where
  | notFound
  | notADirectory
  | isADirectory
  deriving DecidableEq

def Fault.message : Fault → String
  | notFound => "No such file or directory (os error 2)"
  | notADirectory => "Not a directory (os error 20)"
  | isADirectory => "Is a directory (os error 21)"

/-- A path's names, without those that stay where they are. -/
def names (path : String) : List String :=
  ((Text.pieces '/' path.toList).map String.ofList).filter fun n => n ≠ "" ∧ n ≠ "."

def contents? (t : FileTree) (place : List String) : Option String :=
  (t.files.find? fun f => names f.1 = place).map Prod.snd

def isDirectory (t : FileTree) (place : List String) : Bool :=
  place.isEmpty || t.directories.any (names · = place) ||
    t.files.any fun f => place.length < (names f.1).length && (names f.1).take place.length = place

/-- Follows names from the directory `place`, which is given from the top down. -/
def follow (t : FileTree) (place : List String) : List String → Except Fault (List String)
  | [] => .ok place
  | n :: ns =>
    if !t.isDirectory place then
      .error (if (t.contents? place).isSome then .notADirectory else .notFound)
    else if n = ".." then
      if place.isEmpty then .error .notFound else follow t place.dropLast ns
    else follow t (place ++ [n]) ns

/-- A path that ends in a separator or a dot names a directory. -/
def namesDirectory (path : String) : Bool :=
  match ((Text.pieces '/' path.toList).getLast?.map String.ofList) with
  | some n => n = "" || n = "."
  | none => true

def read (t : FileTree) (path : String) : Except Fault String := do
  if path = "" then throw .notFound
  if path.toList.head? = some '/' then
    throw (if names path = [] then .isADirectory else .notFound)
  let place ← t.follow [] (names path)
  if t.isDirectory place then throw .isADirectory
  match t.contents? place with
  | none => throw .notFound
  | some text => if namesDirectory path then throw .notADirectory else return text

end FileTree

namespace KeyFile

inductive Fault where
  | file (f : FileTree.Fault)
  | notAList
  | wrongCount (found : Nat)
  | number (f : Numeral.Fault)
  /-- The second half is not the address of the first. -/
  | mismatch
  deriving DecidableEq

def Fault.message : Fault → String
  | file f => f.message
  | notAList => "Input must be a JSON array"
  | wrongCount found => "Expected 64 elements, found " ++ toString found
  | number f => f.message
  | mismatch => "signature error"

def readBytes : List (List Char) → Except Numeral.Fault Bytes
  | [] => .ok []
  | p :: ps => do
    let n ← Numeral.read 255 (Text.trim p)
    return UInt8.ofNat n :: (← readBytes ps)

/-- The secret that a key file's text holds. -/
def parse [Crypto] (text : String) : Except Fault Secret := do
  let cs := Text.trim text.toList
  if cs.head? ≠ some '[' ∨ cs.getLast? ≠ some ']' then throw .notAList
  let parts := Text.pieces ',' (cs.drop 1).dropLast
  if parts.length ≠ 64 then throw (.wrongCount parts.length)
  let bs ← (readBytes parts).mapError .number
  match Block.ofBytes? 32 (bs.take 32) with
  | none => throw .mismatch
  | some secret =>
    if (Crypto.publicKey secret).bytes = bs.drop 32 then return secret else throw .mismatch

def read [Crypto] (t : FileTree) (path : String) : Except Fault Secret :=
  match t.read path with
  | .error f => .error (.file f)
  | .ok text => parse text

end KeyFile

end Randomness
