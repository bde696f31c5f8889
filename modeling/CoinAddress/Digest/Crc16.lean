import CoinAddress.Text.Basic

/-!
# CRC-16

The remainder of the message polynomial modulo x^16 + x^12 + x^5 + 1, most significant bit first
and starting from zero.
-/

namespace CoinAddress.Crc16

/-- Multiplies the remainder by x. -/
def shift (r : UInt16) : UInt16 :=
  if r &&& 0x8000 ≠ 0 then (r <<< 1) ^^^ 0x1021 else r <<< 1

/-- Takes one more byte of the message into the remainder. -/
def step (r : UInt16) (b : UInt8) : UInt16 :=
  (List.range 8).foldl (fun r _ => shift r) (r ^^^ (b.toUInt16 <<< 8))

/-- The checksum of a message. -/
def checksum (message : Bytes) : UInt16 := message.foldl step 0

/-- The checksum as two bytes, the high one first. -/
def bytes (message : Bytes) : Bytes :=
  let r := checksum message
  [(r >>> 8).toUInt8, r.toUInt8]

end CoinAddress.Crc16
