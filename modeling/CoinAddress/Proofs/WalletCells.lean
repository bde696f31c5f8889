import CoinAddress.Proofs.BitStream
import CoinAddress.Ton.Cell
import CoinAddress.Ton.Wallet

/-!
# The cells of a wallet

The two layouts that the hash of a wallet is put together from are those of cells. The bytes of a
cell are its bits and what completes the last byte, and no other bytes are:
`Cell.paddedBytes_eq_iff`. So a layout is the one of a cell if its bytes spell the cell's bits.

* `Wallet.dataCell_hash`, `Wallet.stateCell_hash`: both layouts.
* `Wallet.account_eq_stateCell_hash`: the account is the hash of the state cell, whatever the code
  cell is that has the hash of the contract's code.
-/

namespace CoinAddress

open Regroup (bits lowBits)

/-! ## Numbers in bytes -/

/-- The bytes of a number are its lowest bits. -/
theorem Bytes.bits_beBytes (k n : Nat) : bits 8 (beBytes k n) = lowBits (8 * k) n := by
  induction k generalizing n with
  | zero => rfl
  | succ k ih =>
    have hlast : beBytes (k + 1) n = beBytes k (n / 256) ++ [UInt8.ofNat n] := by
      rw [beBytes, leBytes, List.reverse_cons, beBytes]
    have hshift : n / 256 = n >>> 8 := (Nat.shiftRight_eq_div_pow n 8).symm
    rw [hlast, Regroup.bits_append, ih, hshift, Regroup.bits_cons, Regroup.bits_nil,
      List.append_nil, UInt8.toNat_ofNat', Regroup.lowBits_mod (Nat.le_refl 8), Nat.mul_succ,
      Regroup.lowBits_add]

namespace Ton

namespace Cell

/-! ## The bytes of a cell -/

/-- The bits of bytes are the stream of their words of eight bits. -/
theorem bitsOfBytes_eq_bits (bs : Bytes) : bitsOfBytes bs = bits 8 bs := by
  have hbyte : bitsOfByte = fun b => lowBits 8 b.toNat := rfl
  rw [bitsOfBytes, hbyte, bits]

/-- What is put behind the bits of a cell: nothing if they fill their bytes, else a one and then
zeros to the end of the byte. -/
def completion (count : Nat) : List Bool :=
  if count % 8 = 0 then [] else true :: List.replicate (7 - count % 8) false

/-- A byte that is put together from eight bits has these bits. -/
theorem lowBits_byteOfBits {bs : List Bool} (h : bs.length = 8) :
    lowBits 8 (byteOfBits bs).toNat = bs := by
  have hbit : ∀ b ∈ bs, b.toNat < 2 ^ 1 := fun b _ => b.toNat_lt
  have hfold : bs.foldl (fun n b => 2 * n + b.toNat) 0 =
      bs.foldl (fun n b => n <<< 1 ||| b.toNat) 0 := by
    refine List.foldl_ext _ _ 0 fun n b hb => ?_
    rw [← Nat.shiftLeft_add_eq_or_of_lt (hbit b hb), Nat.shiftLeft_eq, Nat.mul_comm, Nat.pow_one]
  have hsingle : (bs.flatMap fun b => lowBits 1 b.toNat) = bs := by
    have hone : ∀ b : Bool, lowBits 1 b.toNat = [b] := by decide
    simp only [hone, List.flatMap_singleton']
  have hread := Regroup.lowBits_foldl hbit 0 0
  rw [hsingle, h] at hread
  rw [byteOfBits, UInt8.toNat_ofNat', Regroup.lowBits_mod (Nat.le_refl 8), hfold]
  exact hread

/-- The bytes of a cell spell its bits and what completes them. -/
theorem bits_paddedBytes (bs : List Bool) :
    bits 8 (paddedBytes bs) = bs ++ completion bs.length := by
  fun_induction paddedBytes bs with
  | case1 a b c d e f g h rest ih =>
    have hcount : completion (rest.length + 8) = completion rest.length := by
      rw [completion, Nat.add_mod_right, completion]
    rw [Regroup.bits_cons, lowBits_byteOfBits rfl, ih]
    simp only [List.cons_append, List.nil_append, List.length_cons]
    rw [← hcount]
  | case2 => rfl
  | case3 rest hlong hne =>
    have hshort : rest.length < 8 := by
      match rest, hlong with
      | [], _ | [_], _ | [_, _], _ | [_, _, _], _ | [_, _, _, _], _ | [_, _, _, _, _], _
      | [_, _, _, _, _, _], _ | [_, _, _, _, _, _, _], _ => simp
      | a :: b :: c :: d :: e :: f :: g :: h :: rest, hlong =>
        exact (hlong a b c d e f g h rest rfl).elim
    have hcompletion : completion rest.length =
        true :: List.replicate (7 - rest.length) false := by
      rw [completion, Nat.mod_eq_of_lt hshort, if_neg (mt List.length_eq_zero_iff.1 hne)]
    have hbyte : (rest ++ true :: List.replicate (7 - rest.length) false).length = 8 := by
      rw [List.length_append, List.length_cons, List.length_replicate]
      omega
    rw [Regroup.bits_cons, lowBits_byteOfBits hbyte, Regroup.bits_nil, List.append_nil, hcompletion]

/-- The bytes of a cell are the only ones that spell its bits and what completes them. -/
theorem paddedBytes_eq_iff {stream : List Bool} {bs : Bytes} :
    paddedBytes stream = bs ↔ bits 8 bs = stream ++ completion stream.length := by
  constructor
  · rintro rfl
    exact bits_paddedBytes stream
  · intro h
    have hbits := (bits_paddedBytes stream).trans h.symm
    have hlen := congrArg List.length hbits
    rw [Regroup.length_bits, Regroup.length_bits] at hlen
    refine Regroup.eq_of_bits_eq 8 (fun b _ => ?_) (fun b _ => ?_) (by omega) hbits
    · exact UInt8.toNat_lt_size b
    · exact UInt8.toNat_lt_size b

/-! ## The hash of a cell -/

theorem depthBytes_eq_flatMap (refs : List Cell) :
    depthBytes refs = refs.flatMap fun c => Bytes.beBytes 2 c.depth := by
  induction refs with
  | nil => rfl
  | cons c refs ih => rw [depthBytes, ih, List.flatMap_cons]

theorem hashes_eq_flatMap (refs : List Cell) : hashes refs = refs.flatMap hash := by
  induction refs with
  | nil => rfl
  | cons c refs ih => rw [hashes, ih, List.flatMap_cons]

/-- What the hash of a cell is taken of: the count of its references, the count of its full bytes
and of its begun bytes together, its bytes, and the depths and then the hashes of the cells it
refers to. -/
theorem hash_mk (stream : List Bool) (refs : List Cell) :
    (Cell.mk stream refs).hash = Sha256.hash
      ([UInt8.ofNat refs.length, UInt8.ofNat (stream.length / 8 + (stream.length + 7) / 8)] ++
        paddedBytes stream ++ (refs.flatMap fun c => Bytes.beBytes 2 c.depth) ++
        refs.flatMap hash) := by
  rw [hash, depthBytes_eq_flatMap, hashes_eq_flatMap, descriptors]

end Cell

namespace Wallet

/-! ## The cells of a wallet -/

/-- The data of the contract: a counter that starts at zero, the subwallet and the key. -/
def dataCell (key : Bytes) (subwallet : UInt32) : Cell :=
  .mk (lowBits 32 0 ++ lowBits 32 subwallet.toNat ++ Cell.bitsOfBytes key) []

/-- The first state of a contract: not split and not special, with code and data, and without a
library. -/
def stateCell (code data : Cell) : Cell := .mk [false, false, true, true, false] [code, data]

theorem dataCell_hash {key : Bytes} (h : key.length = 32) (subwallet : UInt32) :
    (dataCell key subwallet).hash = dataHash key subwallet := by
  have hlen : (lowBits 32 0 ++ lowBits 32 subwallet.toNat ++ bits 8 key).length = 320 := by
    simp [h]
  have hbytes : Cell.paddedBytes (lowBits 32 0 ++ lowBits 32 subwallet.toNat ++ bits 8 key) =
      Bytes.beBytes 4 0 ++ Bytes.beBytes 4 subwallet.toNat ++ key := by
    rw [Cell.paddedBytes_eq_iff, hlen, Regroup.bits_append, Regroup.bits_append, Bytes.bits_beBytes,
      Bytes.bits_beBytes]
    exact (List.append_nil _).symm
  rw [dataCell, Cell.bitsOfBytes_eq_bits, Cell.hash_mk, hbytes, hlen, dataHash]
  simp

theorem stateCell_hash {code data : Cell} (hcode : code.depth = 0) (hdata : data.depth = 0) :
    (stateCell code data).hash = stateHash code.hash data.hash := by
  have hbytes : Cell.paddedBytes [false, false, true, true, false] = [0x34] :=
    Cell.paddedBytes_eq_iff.2 rfl
  have hdepth : Bytes.beBytes 2 0 = [0, 0] := rfl
  rw [stateCell, Cell.hash_mk, hbytes, stateHash]
  simp [hcode, hdata, hdepth]

/-- **The account of a wallet is the hash of its state cell,** for every key and subwallet: of the
cell of five bits that refers to the contract's code and to its data, where the code is any cell
without references that has the hash of the contract's code. -/
theorem account_eq_stateCell_hash {key : Bytes} (hkey : key.length = 32) (subwallet : UInt32)
    {code : List Bool} (hcode : (Cell.mk code []).hash = codeHash) :
    account key subwallet = (stateCell (.mk code []) (dataCell key subwallet)).hash := by
  have hleaf : ∀ stream : List Bool, (Cell.mk stream []).depth = 0 := by
    intro stream
    rw [Cell.depth, Cell.depths]
  have hdata : (dataCell key subwallet).depth = 0 := hleaf _
  rw [stateCell_hash (hleaf code) hdata, hcode, dataCell_hash hkey, account]

/-- The code of the contract. -/
def contractCode : Bytes :=
  [0xff, 0x00, 0x20, 0xdd, 0x20, 0x82, 0x01, 0x4c, 0x97, 0xba, 0x21, 0x82, 0x01, 0x33, 0x9c, 0xba,
   0xb1, 0x9f, 0x71, 0xb0, 0xed, 0x44, 0xd0, 0xd3, 0x1f, 0xd3, 0x1f, 0x31, 0xd7, 0x0b, 0xff, 0xe3,
   0x04, 0xe0, 0xa4, 0xf2, 0x60, 0x83, 0x08, 0xd7, 0x18, 0x20, 0xd3, 0x1f, 0xd3, 0x1f, 0xd3, 0x1f,
   0xf8, 0x23, 0x13, 0xbb, 0xf2, 0x63, 0xed, 0x44, 0xd0, 0xd3, 0x1f, 0xd3, 0x1f, 0xd3, 0xff, 0xd1,
   0x51, 0x32, 0xba, 0xf2, 0xa1, 0x51, 0x44, 0xba, 0xf2, 0xa2, 0x04, 0xf9, 0x01, 0x54, 0x10, 0x55,
   0xf9, 0x10, 0xf2, 0xa3, 0xf8, 0x00, 0x93, 0x20, 0xd7, 0x4a, 0x96, 0xd3, 0x07, 0xd4, 0x02, 0xfb,
   0x00, 0xe8, 0xd1, 0x01, 0xa4, 0xc8, 0xcb, 0x1f, 0xcb, 0x1f, 0xcb, 0xff, 0xc9, 0xed, 0x54]

/-- The key of an owner. -/
def ownerKey : Bytes :=
  [0x2d, 0xff, 0x7c, 0xf8, 0x44, 0x6b, 0xd3, 0x82, 0x96, 0x04, 0xbc, 0x5c, 0x21, 0x93, 0xec, 0x64,
   0xc4, 0x3f, 0x67, 0xe7, 0x64, 0xde, 0x3f, 0xd4, 0x80, 0x7d, 0xf7, 0x59, 0xb9, 0x14, 0x26, 0xfe]

/-- The account of this key. -/
def ownerAccount : Bytes :=
  [0x48, 0x7f, 0x47, 0x6d, 0x59, 0x31, 0x69, 0x33, 0xc2, 0x6d, 0x58, 0xcb, 0x57, 0xc5, 0x24, 0x31,
   0xf2, 0xe0, 0xb0, 0xdf, 0x3a, 0xdc, 0x8a, 0x07, 0x49, 0x5f, 0x16, 0xbb, 0x70, 0x13, 0x1c, 0xe9]

/-- The contract's own code has the hash, so the account of a key is read off the cells. -/
theorem account_eq_stateCell_hash_contract :
    ownerKey.length = 32 ∧ (Cell.mk (Cell.bitsOfBytes contractCode) []).hash = codeHash ∧
      account ownerKey defaultSubwallet = (stateCell (.mk (Cell.bitsOfBytes contractCode) [])
        (dataCell ownerKey defaultSubwallet)).hash ∧
      account ownerKey defaultSubwallet = ownerAccount := by
  have hkey : ownerKey.length = 32 := rfl
  have hcode : (Cell.mk (Cell.bitsOfBytes contractCode) []).hash = codeHash := by
    decide +kernel
  refine ⟨hkey, hcode, account_eq_stateCell_hash hkey defaultSubwallet hcode, ?_⟩
  decide +kernel

end Wallet

end Ton

end CoinAddress
