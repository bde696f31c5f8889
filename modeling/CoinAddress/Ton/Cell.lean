import CoinAddress.Digest.Sha256

/-!
# Cells of TON

Data on TON is a tree of cells: some bits and references to other cells. A cell is identified by
its representation hash, the SHA-256 of a descriptor of its size, its bits padded to whole bytes,
and the depth and hash of each cell it refers to.

Bits that do not fill their last byte are completed with a one and then zeros.
-/

namespace CoinAddress.Ton

/-- An ordinary cell. -/
inductive Cell where
  | mk (bits : List Bool) (refs : List Cell)

namespace Cell

/-- The byte with these bits, most significant first. -/
def byteOfBits (bits : List Bool) : UInt8 :=
  UInt8.ofNat (bits.foldl (fun n b => 2 * n + b.toNat) 0)

/-- The bytes of whole groups of eight bits, the last one completed with a one and zeros. -/
def paddedBytes (bits : List Bool) : Bytes :=
  match bits with
  | a :: b :: c :: d :: e :: f :: g :: h :: rest =>
    byteOfBits [a, b, c, d, e, f, g, h] :: paddedBytes rest
  | [] => []
  | rest => [byteOfBits (rest ++ true :: List.replicate (7 - rest.length) false)]

/-- The bits of a byte, most significant first. -/
def bitsOfByte (b : UInt8) : List Bool := (List.range 8).map fun i => b.toNat.testBit (7 - i)

/-- The bits of a byte string. -/
def bitsOfBytes (bs : Bytes) : List Bool := bs.flatMap bitsOfByte

mutual

/-- How many references it takes to reach the deepest cell. -/
def depth : Cell → Nat
  | .mk _ refs => depths refs

/-- One more than the greatest depth of some cells; zero for none. -/
def depths : List Cell → Nat
  | [] => 0
  | c :: cs => max (depth c + 1) (depths cs)

end

/-- The count of references and the size of the data in half bytes. -/
def descriptors (refCount bitCount : Nat) : Bytes :=
  [UInt8.ofNat refCount, UInt8.ofNat (bitCount / 8 + (bitCount + 7) / 8)]

mutual

/-- The representation hash. -/
def hash : Cell → Bytes
  | .mk bits refs =>
    Sha256.hash (descriptors refs.length bits.length ++ paddedBytes bits ++ depthBytes refs ++
      hashes refs)

/-- The depths of some cells, two bytes each. -/
def depthBytes : List Cell → Bytes
  | [] => []
  | c :: cs => Bytes.beBytes 2 (depth c) ++ depthBytes cs

/-- The hashes of some cells. -/
def hashes : List Cell → Bytes
  | [] => []
  | c :: cs => hash c ++ hashes cs

end

end Cell

end CoinAddress.Ton
