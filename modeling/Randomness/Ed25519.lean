import Randomness.Hash

/-!
Ed25519: points of the curve `-x² + y² = 1 + d x² y²` over the integers modulo `2^255 - 19`, their
32-byte form, and signatures.
-/

namespace Randomness.Ed25519

def prime : Nat := Nat.pow 2 255 - 19

/-- The order of the base point. -/
def order : Nat := Nat.pow 2 252 + 27742317777372353535851937790883648493

def add (x y : Nat) : Nat := (x + y) % prime
def sub (x y : Nat) : Nat := (x + (prime - y % prime)) % prime
def mul (x y : Nat) : Nat := x * y % prime
def neg (x : Nat) : Nat := sub 0 x

/-- `x ^ e` for exponents below `2 ^ 256`. -/
def pow (x e : Nat) : Nat :=
  (List.range 256).foldr (fun i r => let s := mul r r; if e.testBit i then mul s x else s) 1

def inverse (x : Nat) : Nat := pow x (prime - 2)

def d : Nat := mul (neg 121665) (inverse 121666)

def rootOfMinusOne : Nat := pow 2 ((prime - 1) / 4)

/-- A square root of `u / v`, if there is one. -/
def rootOfQuotient? (u v : Nat) : Option Nat :=
  let v3 := mul (mul v v) v
  let v7 := mul (mul v3 v3) v
  let r := mul (mul u v3) (pow (mul u v7) ((prime - 5) / 8))
  let check := mul v (mul r r)
  if check = u then some r
  else if check = neg u then some (mul r rootOfMinusOne)
  else none

/-- Extended coordinates: `x = X/Z`, `y = Y/Z`, `x y = T/Z`. -/
structure Point where
  X : Nat
  Y : Nat
  Z : Nat
  T : Nat

namespace Point

def ofAffine (x y : Nat) : Point := ⟨x, y, 1, mul x y⟩

def identity : Point := ofAffine 0 1

def add (p q : Point) : Point :=
  let a := mul (sub p.Y p.X) (sub q.Y q.X)
  let b := mul (Ed25519.add p.Y p.X) (Ed25519.add q.Y q.X)
  let c := mul (mul p.T (2 * d)) q.T
  let e := mul (2 * p.Z) q.Z
  let f := sub b a
  let g := sub e c
  let h := Ed25519.add e c
  let i := Ed25519.add b a
  ⟨mul f g, mul h i, mul g h, mul f i⟩

def neg (p : Point) : Point := ⟨Ed25519.neg p.X, p.Y, p.Z, Ed25519.neg p.T⟩

/-- `n · p` for `n` below `2 ^ 256`. -/
def scale (n : Nat) (p : Point) : Point :=
  (List.range 256).foldr
    (fun i r => let s := r.add r; if n.testBit i then s.add p else s) identity

def isIdentity (p : Point) : Bool := p.X == 0 && p.Y == p.Z

def hasSmallOrder (p : Point) : Bool := (scale 8 p).isIdentity

def encode (p : Point) : Block 32 :=
  let z := inverse p.Z
  let x := mul p.X z
  let y := mul p.Y z
  ⟨LittleEndian.encode 32 (y + x % 2 * Nat.pow 2 255), LittleEndian.length_encode ..⟩

/-- The point with this 32-byte form: the height `y`, which may also be written unreduced, and the
parity of `x` in the top bit. -/
def decode? (b : Block 32) : Option Point :=
  let n := LittleEndian.decode b.bytes
  let y := n % Nat.pow 2 255 % prime
  let y2 := mul y y
  (rootOfQuotient? (sub y2 1) (Ed25519.add (mul d y2) 1)).map fun x =>
    ofAffine (if x % 2 = n / Nat.pow 2 255 then x else Ed25519.neg x) y

def base : Point :=
  let y := mul 4 (inverse 5)
  let y2 := mul y y
  let x := (rootOfQuotient? (sub y2 1) (Ed25519.add (mul d y2) 1)).getD 0
  ofAffine (if x % 2 = 0 then x else Ed25519.neg x) y

end Point

def hashToNat (bs : Bytes) : Nat := LittleEndian.decode (Sha2.sha512.digest bs).bytes

/-- The secret scalar of a seed, and the half of the seed's hash that makes signatures
deterministic. -/
def expand (seed : Block 32) : Nat × Bytes :=
  let h := (Sha2.sha512.digest seed.bytes).bytes
  let n := LittleEndian.decode (h.take 32)
  (n % Nat.pow 2 254 / 8 * 8 + Nat.pow 2 254, h.drop 32)

def publicKey (seed : Block 32) : Block 32 := (Point.base.scale (expand seed).1).encode

def sign (seed : Block 32) (message : Bytes) : Block 64 :=
  let (scalar, salt) := expand seed
  let key := (Point.base.scale scalar).encode.bytes
  let r := hashToNat (salt ++ message) % order
  let R := (Point.base.scale r).encode
  let k := hashToNat (R.bytes ++ key ++ message) % order
  let s := (r + k * scalar) % order
  R.append ⟨LittleEndian.encode 32 s, LittleEndian.length_encode ..⟩

/-- Strict verification: the scalar is reduced and neither point has small order. -/
def verify (key : Block 32) (message : Bytes) (signature : Block 64) : Bool :=
  let R : Block 32 := Block.front (m := 32) (n := 32) signature
  let s := LittleEndian.decode (Block.back (m := 32) (n := 32) signature).bytes
  match Point.decode? key, Point.decode? R with
  | some A, some P =>
    let k := hashToNat (R.bytes ++ key.bytes ++ message) % order
    s < order && !P.hasSmallOrder && !A.hasSmallOrder &&
      ((Point.base.scale s).add (A.neg.scale k)).encode = R
  | _, _ => false

def isOnCurve (b : Block 32) : Bool := (Point.decode? b).isSome

end Randomness.Ed25519
