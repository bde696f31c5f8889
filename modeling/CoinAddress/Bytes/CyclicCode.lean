import CoinAddress.Text.Basic

/-!
# Cyclic checksums over words of five bits

A code is given by the multiples of its generator polynomial by the five powers of two. The
remainder of a list of words starts from one, so that leading zero words count; it holds one word
for each checksum word.

A list of words is a codeword for `target` when its remainder is `target`; `checksum` gives the
words to append.
-/

namespace CoinAddress

/-- A code: how many checksum words it has, and the generator times 1, 2, 4, 8 and 16. -/
structure CyclicCode where
  checksumWords : Nat
  generators : List Nat

namespace CyclicCode

/-- How many bits of a remainder lie below its top word. -/
def lowBits (g : CyclicCode) : Nat := 5 * (g.checksumWords - 1)

/-- The multiple of the generator that the top word of a remainder selects. -/
def feedback (g : CyclicCode) (top : Nat) : Nat :=
  g.generators.zipIdx.foldl (fun r wi => if top.testBit wi.2 then r ^^^ wi.1 else r) 0

/-- Takes one more word into a remainder. -/
def step (g : CyclicCode) (r : Nat) (w : UInt8) : Nat :=
  ((r % (1 <<< g.lowBits)) <<< 5 ^^^ w.toNat) ^^^ g.feedback (r >>> g.lowBits)

/-- The remainder of a list of words. -/
def residue (g : CyclicCode) (ws : Bytes) : Nat := ws.foldl g.step 1

/-- The words that make the remainder of a list `target` when they are appended. -/
def checksum (g : CyclicCode) (target : Nat) (ws : Bytes) : Bytes :=
  let r := g.residue (ws ++ List.replicate g.checksumWords 0) ^^^ target
  (List.range g.checksumWords).map fun i =>
    UInt8.ofNat (r >>> (5 * (g.checksumWords - 1 - i)) % 32)

@[simp] theorem length_checksum (g : CyclicCode) (target : Nat) (ws : Bytes) :
    (g.checksum target ws).length = g.checksumWords := by simp [checksum]

theorem residue_append (g : CyclicCode) (a b : Bytes) :
    g.residue (a ++ b) = b.foldl g.step (g.residue a) := List.foldl_append

end CyclicCode

end CoinAddress
