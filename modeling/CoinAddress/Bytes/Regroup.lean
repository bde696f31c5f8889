import CoinAddress.Text.Basic

/-!
# Regrouping a bit stream

A list of words of one width is read as one stream of bits, most significant bit first, and cut
into words of another width.

The bits read and not yet given out stay at the bottom of a 32 bit accumulator. Old bits are
shifted out at its top and never masked away; they do no harm as long as both widths are at most
eight, because fewer than `target + source` bits are pending at any time.

At the end of the stream the pending bits are either padded with zeros to one more word, or they
must be such a padding themselves: fewer than a whole source word, and all zero.
-/

namespace CoinAddress.Regroup

/-- Why a list of words has no regrouping. -/
inductive Fault where
  | wordTooWide
  | padding
  deriving DecidableEq, Repr

/-- The lowest `width` bits set. -/
def mask (width : Nat) : UInt32 := (1 <<< UInt32.ofNat width) - 1

/-- The whole words among `count` pending bits, from the top. -/
def wholeWords (target count : Nat) (pending : UInt32) : Bytes :=
  (List.range (count / target)).map fun i =>
    ((pending >>> UInt32.ofNat (count - target * (i + 1))) &&& mask target).toUInt8

/-- The pending bits moved to the top of one more word. -/
def lastWord (target count : Nat) (pending : UInt32) : UInt8 :=
  ((pending <<< UInt32.ofNat (target - count)) &&& mask target).toUInt8

/-- Regroups the rest of a stream, of which `count` bits are pending. -/
def regroupFrom (source target : Nat) (pad : Bool) (pending : UInt32) (count : Nat) :
    Bytes → Except Fault Bytes
  | [] =>
    if pad then .ok (if 0 < count then [lastWord target count pending] else [])
    else if source ≤ count ∨ lastWord target count pending ≠ 0 then .error .padding
    else .ok []
  | w :: ws =>
    if w.toNat >>> source ≠ 0 then .error .wordTooWide
    else
      let pending := (pending <<< UInt32.ofNat source) ||| w.toUInt32
      let count := count + source
      (regroupFrom source target pad pending (count % target) ws).map
        (wholeWords target count pending ++ ·)

/-- Regroups a list of words of width `source` into words of width `target`. -/
def regroup (source target : Nat) (pad : Bool) (words : Bytes) : Except Fault Bytes :=
  regroupFrom source target pad 0 0 words

example : regroup 8 5 true [0xff] = .ok [31, 28] := rfl
example : regroup 5 8 false [31, 28] = .ok [0xff] := rfl
example : regroup 5 8 false [31, 29] = .error .padding := rfl
example : regroup 5 8 false [31, 28, 0] = .error .padding := rfl

/-- Bytes as words of `width` bits, the last one padded with zeros. -/
def ofBytes (width : Nat) (bs : Bytes) : Bytes :=
  match regroup 8 width true bs with
  | .ok ws => ws
  | .error _ => []

theorem regroupFrom_eq_ok {target : Nat} (pending : UInt32) (count : Nat) (bs : Bytes) :
    ∃ ws, regroupFrom 8 target true pending count bs = .ok ws := by
  induction bs generalizing pending count with
  | nil => exact ⟨_, rfl⟩
  | cons b bs ih =>
    have hb : b.toNat >>> 8 = 0 := by
      rw [Nat.shiftRight_eq_div_pow]
      exact Nat.div_eq_of_lt (UInt8.toNat_lt_size b)
    obtain ⟨ws, hws⟩ := ih ((pending <<< UInt32.ofNat 8) ||| b.toUInt32) ((count + 8) % target)
    simp only [regroupFrom, hb, ne_eq, not_true_eq_false, if_false, hws]
    exact ⟨_, rfl⟩

/-- Padded regrouping of bytes cannot fail. -/
theorem regroup_ofBytes (width : Nat) (bs : Bytes) :
    regroup 8 width true bs = .ok (ofBytes width bs) := by
  obtain ⟨ws, hws⟩ := @regroupFrom_eq_ok width 0 0 bs
  rw [ofBytes, regroup, hws]

end CoinAddress.Regroup
