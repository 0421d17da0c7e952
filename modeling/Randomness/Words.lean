import Randomness.Crypto
import Randomness.Bytes.LittleEndian

/-!
Random words. A fulfilled request holds one random block; its words are hashes of the block and the
word's number, so whoever holds the block can compute them.
-/

namespace Randomness

def randomWord [Crypto] (base : Block 32) (index : UInt32) : Block 32 :=
  Crypto.hash (base.bytes ++ LittleEndian.encode 4 index.toNat)

def randomWords [Crypto] (base : Block 32) (count : UInt32) : List (Block 32) :=
  (List.range count.toNat).map fun i => randomWord base (UInt32.ofNat i)

end Randomness
