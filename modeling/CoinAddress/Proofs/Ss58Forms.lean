import CoinAddress.Proofs.Ss58Text
import Mathlib.Logic.Basic

/-!
# The forms of a Substrate address

An account on a network has the text that is written for it. A number below 64, which is written
in one byte, is also read in two, so an account on such a network has a second text: its
`LongForm`. Those are all, and no text is both: `decode_iff_encode_xor_longForm`. That second
texts are really accepted shows in `decode_long_form_of_zero`.

What is written on a network is read on that network and on no other: `written_on_its_network`.
-/

namespace CoinAddress.Ss58

/-- The text of an account whose network number stands in two bytes although one is enough. -/
structure LongForm (network : UInt16) (account : Bytes) (s : Text) : Prop where
  small : network < 64
  account_length : account.length = 32
  text : s = textOf (longBytes network) account

/-- The bytes of the two forms differ in number. -/
theorem textOf_longBytes_ne {network : UInt16} (h : network < 64) (account : Bytes) :
    textOf (longBytes network) account ≠ textOf (networkBytes network) account := by
  intro heq
  have hlen := congrArg List.length (Base58.encode_injective heq)
  rw [networkBytes_of_small h] at hlen
  simp only [List.length_append, length_checksum, longBytes, List.length_cons,
    List.length_nil] at hlen
  omega

theorem not_longForm_of_encode {network : UInt16} {account : Bytes} {s : Text}
    (h : encode network account = .ok s) : ¬ LongForm network account s := by
  obtain ⟨-, -, rfl⟩ := encode_eq_ok_iff.1 h
  rintro ⟨hsmall, -, htext⟩
  exact textOf_longBytes_ne hsmall account htext.symm

/-- **An accepted text is the one that is written, or the long form,** and never both. -/
theorem decode_iff_encode_xor_longForm (s : Text) (network : UInt16) (account : Bytes) :
    decode s = .ok (network, account) ↔
      Xor (encode network account = .ok s) (LongForm network account s) := by
  rw [decode_eq_ok_iff]
  constructor
  · rintro ⟨hlen, front, hfront, rfl⟩
    obtain ⟨hmax, rfl | ⟨hsmall, rfl⟩⟩ := names_iff.1 hfront
    · have hwritten := encode_eq_ok_iff.2 ⟨hlen, hmax, rfl⟩
      exact .inl ⟨hwritten, not_longForm_of_encode hwritten⟩
    · have hlong : LongForm network account _ := ⟨hsmall, hlen, rfl⟩
      exact .inr ⟨hlong, fun hwritten => not_longForm_of_encode hwritten hlong⟩
  · rintro (⟨hwritten, -⟩ | ⟨⟨hsmall, hlen, rfl⟩, -⟩)
    · obtain ⟨hlen, hmax, rfl⟩ := encode_eq_ok_iff.1 hwritten
      exact ⟨hlen, _, names_networkBytes hmax, rfl⟩
    · have hmax : network ≤ maxNetwork := UInt16.le_of_lt (UInt16.lt_trans hsmall (by decide))
      exact ⟨hlen, _, names_longBytes hmax, rfl⟩

/-- An account. -/
def sampleAccount : Bytes :=
  [0x2d, 0xff, 0x7c, 0xf8, 0x44, 0x6b, 0xd3, 0x82, 0x96, 0x04, 0xbc, 0x5c, 0x21, 0x93, 0xec, 0x64,
   0xc4, 0x3f, 0x67, 0xe7, 0x64, 0xde, 0x3f, 0xd4, 0x80, 0x7d, 0xf7, 0x59, 0xb9, 0x14, 0x26, 0xfe]

/-- **An account on network 0 has a text that is read as it and is not what is written for it,**
beside the one that is. -/
theorem decode_long_form_of_zero :
    decode "VBp6g4QEvb8zLgr8FYL49NmjuHcHCAQdUnbPmJ1LZhHJQi4Me".toList = .ok (0, sampleAccount) ∧
      encode 0 sampleAccount ≠ .ok "VBp6g4QEvb8zLgr8FYL49NmjuHcHCAQdUnbPmJ1LZhHJQi4Me".toList ∧
      decode "123K3wPFnMXwm7yr3LizgYTkMhMUwiDiG2rbKWRZbf9PiM2a".toList =
        .ok (0, sampleAccount) := by
  refine ⟨?_, ?_, ?_⟩
  · decide +kernel
  · decide +kernel
  · decide +kernel

/-! ## Writing on a network and reading on another -/

theorem exists_encode_iff {network : UInt16} {account : Bytes} :
    (∃ s, encode network account = .ok s) ↔ network.toNat ≤ 16383 ∧ account.length = 32 := by
  have hmax : network ≤ maxNetwork ↔ network.toNat ≤ 16383 := UInt16.le_iff_toNat_le
  simp only [encode_eq_ok_iff, hmax]
  constructor
  · rintro ⟨s, hlen, hle, -⟩
    exact ⟨hle, hlen⟩
  · rintro ⟨hle, hlen⟩
    exact ⟨_, hlen, hle, rfl⟩

/-- What is written is read back. -/
theorem decode_of_encode {network : UInt16} {account : Bytes} {s : Text}
    (h : encode network account = .ok s) : decode s = .ok (network, account) := by
  obtain ⟨hlen, hmax, rfl⟩ := encode_eq_ok_iff.1 h
  exact decode_eq_ok_iff.2 ⟨hlen, _, names_networkBytes hmax, rfl⟩

/-- The network of a text is compared with the one that is asked for, and named where it differs. -/
theorem decodeFor_of_decode {s : Text} {network : UInt16} {account : Bytes}
    (h : decode s = .ok (network, account)) (other : UInt16) :
    decodeFor other s = if network = other then .ok account
      else .error (.invalidPrefix (Text.ofNat other.toNat) (Text.ofNat network.toNat)) := by
  rw [decodeFor, h, ← ite_not]
  rfl

/-- **An account is written on the networks that two bytes hold, and is read on its own only.** -/
theorem written_on_its_network (network : UInt16) (account : Bytes) :
    ((∃ s, encode network account = .ok s) ↔ network.toNat ≤ 16383 ∧ account.length = 32) ∧
    ∀ s, encode network account = .ok s → decode s = .ok (network, account) ∧
      decodeFor network s = .ok account ∧
      ∀ other ≠ network, decodeFor other s =
        .error (.invalidPrefix (Text.ofNat other.toNat) (Text.ofNat network.toNat)) := by
  refine ⟨exists_encode_iff, ?_⟩
  intro s hs
  have hread : decode s = .ok (network, account) := decode_of_encode hs
  refine ⟨hread, ?_, ?_⟩
  · rw [decodeFor_of_decode hread, if_pos rfl]
  · intro other hother
    rw [decodeFor_of_decode hread, if_neg hother.symm]

/-- A network whose number takes two bytes, and another one. -/
theorem written_on_its_network_1284 :
    encode 1284 sampleAccount = .ok "VdrZqXLZ9u5G3TAiKwHfLvy9oyFbwVEyL25z2sQC9YTVgAL8G".toList ∧
      (0 : UInt16) ≠ 1284 ∧
      decode "VdrZqXLZ9u5G3TAiKwHfLvy9oyFbwVEyL25z2sQC9YTVgAL8G".toList =
        .ok (1284, sampleAccount) ∧
      decodeFor 0 "VdrZqXLZ9u5G3TAiKwHfLvy9oyFbwVEyL25z2sQC9YTVgAL8G".toList =
        .error (.invalidPrefix ['0'] "1284".toList) := by
  have hwritten : encode 1284 sampleAccount =
      .ok "VdrZqXLZ9u5G3TAiKwHfLvy9oyFbwVEyL25z2sQC9YTVgAL8G".toList := by decide +kernel
  obtain ⟨hread, -, hother⟩ := (written_on_its_network 1284 sampleAccount).2 _ hwritten
  refine ⟨hwritten, by decide, hread, (hother 0 (by decide)).trans ?_⟩
  decide +kernel

end CoinAddress.Ss58
