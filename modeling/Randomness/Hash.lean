import Randomness.Bytes.LittleEndian

/-!
SHA-2. A member of the family is given by its word type and rotation amounts; the constants are the
leading fractional bits of roots of primes.
-/

namespace Randomness.Sha2

/-- Bits `b - 1` down to `0` of the integer `k`-th root of `n`, below the bits in `r`. -/
def rootBits (k n : Nat) : Nat → Nat → Nat
  | 0, r => r
  | b + 1, r => rootBits k n b (if Nat.pow (r + 1 <<< b) k ≤ n then r + 1 <<< b else r)

/-- The first `w` fractional bits of the `k`-th root of `p`, for roots below 32. -/
def fraction (k w p : Nat) : Nat := rootBits k (p <<< (k * w)) (w + 5) 0 % 1 <<< w

def primes (bound : Nat) : List Nat :=
  (List.range bound).filter fun n => 2 ≤ n && (List.range n).all fun d => d < 2 || n % d != 0

/-- What tells the members of the family apart. -/
structure Variant (W : Type) where
  wordBytes : Nat
  ofNat : Nat → W
  toNat : W → Nat
  add : W → W → W
  and : W → W → W
  xor : W → W → W
  not : W → W
  rotate : W → Nat → W
  shift : W → Nat → W
  roundConstants : List W
  initial : List W
  /-- Rotations of the two round functions, and two rotations and a shift for the schedule's two. -/
  sum0 : Nat × Nat × Nat
  sum1 : Nat × Nat × Nat
  mix0 : Nat × Nat × Nat
  mix1 : Nat × Nat × Nat

structure State (W : Type) where
  a : W
  b : W
  c : W
  d : W
  e : W
  f : W
  g : W
  h : W

namespace Variant

variable {W : Type} (v : Variant W)

def blockBytes : Nat := 16 * v.wordBytes

def rotations (r : Nat × Nat × Nat) (x : W) : W :=
  v.xor (v.xor (v.rotate x r.1) (v.rotate x r.2.1)) (v.rotate x r.2.2)

def mix (r : Nat × Nat × Nat) (x : W) : W :=
  v.xor (v.xor (v.rotate x r.1) (v.rotate x r.2.1)) (v.shift x r.2.2)

def bigEndian (bs : Bytes) : Nat := LittleEndian.decode bs.reverse

/-- The message, a one bit, zeros, and the message's length in bits, up to a whole number of blocks. -/
def padded (message : Bytes) : Bytes :=
  let zeros := (2 * v.blockBytes - 1 - (message.length + 2 * v.wordBytes) % v.blockBytes) % v.blockBytes
  message ++ 0x80 :: List.replicate zeros 0 ++
    (LittleEndian.encode (2 * v.wordBytes) (8 * message.length)).reverse

def words : Nat → Bytes → List W
  | 0, _ => []
  | n + 1, bs => v.ofNat (bigEndian (bs.take v.wordBytes)) :: words n (bs.drop v.wordBytes)

/-- The schedule so far, newest word first, extended by `n` words. -/
def extend : Nat → Array W → Array W
  | 0, ws => ws
  | n + 1, ws =>
    let back (k : Nat) : W := ws.getD (ws.size - k) (v.ofNat 0)
    extend n (ws.push
      (v.add (v.add (v.mix v.mix1 (back 2)) (back 7)) (v.add (v.mix v.mix0 (back 15)) (back 16))))

def round (s : State W) (kw : W) : State W :=
  let choice := v.xor (v.and s.e s.f) (v.and (v.not s.e) s.g)
  let majority := v.xor (v.xor (v.and s.a s.b) (v.and s.a s.c)) (v.and s.b s.c)
  let t := v.add (v.add s.h (v.rotations v.sum1 s.e)) (v.add choice kw)
  let u := v.add (v.rotations v.sum0 s.a) majority
  { a := v.add t u, b := s.a, c := s.b, d := s.c, e := v.add s.d t, f := s.e, g := s.f, h := s.g }

def compress (s : State W) (block : Bytes) : State W :=
  let ws := (v.extend (v.roundConstants.length - 16) (v.words 16 block).toArray).toList
  let r := (List.zipWith v.add v.roundConstants ws).foldl v.round s
  { a := v.add s.a r.a, b := v.add s.b r.b, c := v.add s.c r.c, d := v.add s.d r.d
    e := v.add s.e r.e, f := v.add s.f r.f, g := v.add s.g r.g, h := v.add s.h r.h }

def start : State W :=
  let i (k : Nat) : W := v.initial.getD k (v.ofNat 0)
  { a := i 0, b := i 1, c := i 2, d := i 3, e := i 4, f := i 5, g := i 6, h := i 7 }

/-- The state after `n` blocks of the padded message. -/
def absorb : Nat → State W → Bytes → State W
  | 0, s, _ => s
  | n + 1, s, bs => absorb n (v.compress s (bs.take v.blockBytes)) (bs.drop v.blockBytes)

def digest (message : Bytes) : Block (8 * v.wordBytes) :=
  let bs := v.padded message
  let s := v.absorb (bs.length / v.blockBytes) v.start bs
  let n := [s.a, s.b, s.c, s.d, s.e, s.f, s.g, s.h].foldl
    (fun n w => n <<< (8 * v.wordBytes) + v.toNat w) 0
  ⟨(LittleEndian.encode (8 * v.wordBytes) n).reverse, by simp⟩

end Variant

def sha256 : Variant UInt32 where
  wordBytes := 4
  ofNat := UInt32.ofNat
  toNat := UInt32.toNat
  add := (· + ·)
  and := (· &&& ·)
  xor := (· ^^^ ·)
  not := (~~~ ·)
  rotate x n := (x >>> UInt32.ofNat n) ||| (x <<< UInt32.ofNat (32 - n))
  shift x n := x >>> UInt32.ofNat n
  roundConstants := (primes 312).map fun p => UInt32.ofNat (fraction 3 32 p)
  initial := (primes 20).map fun p => UInt32.ofNat (fraction 2 32 p)
  sum0 := (2, 13, 22)
  sum1 := (6, 11, 25)
  mix0 := (7, 18, 3)
  mix1 := (17, 19, 10)

def sha512 : Variant UInt64 where
  wordBytes := 8
  ofNat := UInt64.ofNat
  toNat := UInt64.toNat
  add := (· + ·)
  and := (· &&& ·)
  xor := (· ^^^ ·)
  not := (~~~ ·)
  rotate x n := (x >>> UInt64.ofNat n) ||| (x <<< UInt64.ofNat (64 - n))
  shift x n := x >>> UInt64.ofNat n
  roundConstants := (primes 410).map fun p => UInt64.ofNat (fraction 3 64 p)
  initial := (primes 20).map fun p => UInt64.ofNat (fraction 2 64 p)
  sum0 := (28, 34, 39)
  sum1 := (14, 18, 41)
  mix0 := (1, 8, 7)
  mix1 := (19, 61, 6)

end Randomness.Sha2
