import CoinAddress.Proofs.FamilyText

/-!
# The forms of an account of 20 bytes

On an EVM chain an account is written in hexadecimal. Behind either mark, its digits are accepted
in small letters, in capitals, and in the letter case of the checksum, and in no other spelling:
`Evm.validate_iff_spelling`. Writing the checksum again changes nothing. None of this depends on
the digest that the checksum is made with.

On Tron an account is written in Base58 behind a version. Whatever the account and its checksum
are, the text has 34 characters of which the first is `T`, so the test of that character refuses no
account: `Tron.validate_iff_decode`.

Both formats write the same account of a key, and both texts lead back to it:
`Family.account_of_both_texts`.
-/

namespace CoinAddress

namespace Evm

variable {digest : Bytes → Bytes}

/-- How the digits of an account may be spelled: in small letters, in capitals, or in the letter
case of the checksum. -/
inductive Spelling (digest : Bytes → Bytes) (account : Bytes) : Text → Prop
  | small : Spelling digest account (Hex.encode account)
  | capital : Spelling digest account ((Hex.encode account).map Char.toUpper)
  | checked : Spelling digest account (digitsBy digest account)

theorem spelling_iff {account : Bytes} {digits : Text} :
    Spelling digest account digits ↔ digits.map Char.toLower = Hex.encode account ∧
      (Text.mixedCase digits = false ∨ digits = digitsBy digest account) := by
  constructor
  · rintro (_ | _ | _)
    · have h := (Text.lower_eq_iff (Hex.noUpper_encode account)).2 (.inl rfl)
      exact ⟨h.2, .inl h.1⟩
    · have h := (Text.lower_eq_iff (Hex.noUpper_encode account)).2 (.inr rfl)
      exact ⟨h.2, .inl h.1⟩
    · exact ⟨map_toLower_digitsBy digest account, .inr rfl⟩
  · rintro ⟨htext, hcase | rfl⟩
    · rcases (Text.lower_eq_iff (Hex.noUpper_encode account)).1 ⟨hcase, htext⟩ with rfl | rfl
      · exact .small
      · exact .capital
    · exact .checked

theorem validateBy_iff_spelling {s : Text} :
    validateBy digest s = .ok () ↔ ∃ account digits, account.length = 20 ∧
      (s = '0' :: 'x' :: digits ∨ s = '0' :: 'X' :: digits) ∧ Spelling digest account digits := by
  rw [validateBy_eq_ok_iff]
  simp only [digitsOf_eq_ok_iff, spelling_iff]

/-- The text with the checksum is read as its account. -/
theorem parse_textBy {account : Bytes} (h : account.length = 20) :
    parse (textBy digest account) = .ok account :=
  parse_eq_ok_iff.2 ⟨h, _, rfl, map_toLower_digitsBy digest account⟩

theorem checksumBy_of_parse {s : Text} {account : Bytes} (h : parse s = .ok account) :
    checksumBy digest s = .ok (textBy digest account) := by
  rw [checksumBy, h]
  rfl

/-- **An address is accepted in three spellings of its digits,** behind either mark. The text with
the checksum is made from the account alone; it is read as that account, it is accepted, and it is
its own text with the checksum. This holds of any digest function, of which the one in use is a
case. -/
theorem validate_iff_spelling (digest : Bytes → Bytes) :
    (∀ s, validateBy digest s = .ok () ↔ ∃ account digits, account.length = 20 ∧
      (s = '0' :: 'x' :: digits ∨ s = '0' :: 'X' :: digits) ∧ Spelling digest account digits) ∧
    (∀ s account, parse s = .ok account →
      checksumBy digest s = .ok (textBy digest account) ∧
      parse (textBy digest account) = .ok account ∧
      validateBy digest (textBy digest account) = .ok () ∧
      checksumBy digest (textBy digest account) = .ok (textBy digest account)) ∧
    validateBy Keccak256.hash = validate ∧ checksumBy Keccak256.hash = checksum := by
  refine ⟨?_, ?_, validateBy_keccak, checksumBy_keccak⟩
  · intro s
    exact validateBy_iff_spelling
  · intro s account h
    have hlen := (parse_eq_ok_iff.1 h).1
    have hread : parse (textBy digest account) = .ok account := parse_textBy hlen
    exact ⟨checksumBy_of_parse h, hread,
      validateBy_iff_spelling.2 ⟨account, _, hlen, .inl rfl, .checked⟩, checksumBy_of_parse hread⟩

/-- An account with letters of which some are capitals in its checksum. -/
def sampleAccount : Bytes :=
  [0x5a, 0xed, 0xa5, 0x62, 0x15, 0xb1, 0x67, 0x89, 0x3e, 0x80, 0xb4, 0xfe, 0x64, 0x5b, 0xa6, 0xd5,
   0xba, 0xb7, 0x67, 0xde]

/-- An address in small letters, the same in capitals behind the other mark, and its checksum. -/
theorem validate_iff_spelling_sample :
    parse "0x5aeda56215b167893e80b4fe645ba6d5bab767de".toList = .ok sampleAccount ∧
      validate "0X5AEDA56215B167893E80B4FE645BA6D5BAB767DE".toList = .ok () ∧
      checksum "0x5aeda56215b167893e80b4fe645ba6d5bab767de".toList =
        .ok "0x5AEDA56215b167893e80B4fE645BA6d5Bab767DE".toList ∧
      validate "0x5AEDA56215b167893e80B4fE645BA6d5Bab767DE".toList = .ok () := by
  obtain ⟨hspelling, hchecked, hvalidate, hchecksum⟩ := validate_iff_spelling Keccak256.hash
  rw [hvalidate] at hspelling
  rw [hvalidate, hchecksum] at hchecked
  have hread : parse "0x5aeda56215b167893e80b4fe645ba6d5bab767de".toList = .ok sampleAccount := by
    decide +kernel
  have htext : textBy Keccak256.hash sampleAccount =
      "0x5AEDA56215b167893e80B4fE645BA6d5Bab767DE".toList := by decide +kernel
  obtain ⟨hsum, -, hok, -⟩ := hchecked _ _ hread
  rw [htext] at hsum hok
  refine ⟨hread, (hspelling _).2 ⟨sampleAccount, _, rfl, .inr ?_, .capital⟩, hsum, hok⟩
  decide +kernel

end Evm

namespace Tron

/-- The text of an account has 34 characters, of which the first is `T`. -/
theorem form_encode {account : Bytes} (h : account.length = 20) :
    (encode account).length = 34 ∧ (encode account).head? = some 'T' := by
  obtain ⟨tail, htail, hlen⟩ := encode_account_eq_cons h
  rw [htail]
  exact ⟨by rw [List.length_cons, hlen], rfl⟩

theorem decode_eq_ok_iff {s : Text} {account : Bytes} :
    decode s = .ok account ↔ s = encode account ∧ account.length = 20 :=
  Base58Check.decodeExpecting_eq_ok_iff

/-- **The test of the first character refuses no account:** a text is accepted just when it is read
as an account, since every account has a text of 34 characters that starts with `T`. So the address
of every key is accepted. -/
theorem validate_iff_decode :
    (∀ s, validate s = .ok () ↔ ∃ account, decode s = .ok account) ∧
    (∀ account : Bytes, account.length = 20 →
      (Base58Check.encode [0x41] account).length = 34 ∧
        (Base58Check.encode [0x41] account).head? = some 'T') ∧
    ∀ key s, Family.tron.encodeKey key = .ok s → validate s = .ok () := by
  refine ⟨?_, ?_, ?_⟩
  · intro s
    rw [validate_eq_ok_iff]
    exact exists_congr fun account => and_comm.trans decode_eq_ok_iff.symm
  · intro account h
    exact form_encode h
  · intro key s h
    obtain ⟨account, haccount, rfl⟩ := map_eq_ok_iff.1 h
    exact validate_eq_ok_iff.2 ⟨account, Account.length_of_evm haccount, rfl⟩

/-- A key in compressed form. -/
def sampleKey : Bytes :=
  [0x03, 0xf0, 0x45, 0x67, 0x0b, 0x03, 0xdd, 0xfd, 0x79, 0xc2, 0x32, 0xea, 0x8a, 0xf4, 0x79, 0x9c,
   0xc0, 0xd3, 0xac, 0x60, 0xa3, 0xd5, 0xa0, 0x49, 0x42, 0xf7, 0x5b, 0x29, 0xb4, 0x9d, 0x35, 0x7b,
   0x0d]

/-- The account of zero bits only, and the address of a key. -/
theorem validate_iff_decode_sample :
    (Base58Check.encode [0x41] (List.replicate 20 0)).head? = some 'T' ∧
      Family.tron.encodeKey sampleKey = .ok "THFxtPNvc7R9rz4ecC6aTSyPp2WoZnrZh3".toList ∧
      validate "THFxtPNvc7R9rz4ecC6aTSyPp2WoZnrZh3".toList = .ok () :=
  have hwritten : Family.tron.encodeKey sampleKey =
      .ok "THFxtPNvc7R9rz4ecC6aTSyPp2WoZnrZh3".toList := by decide +kernel
  have h := validate_iff_decode
  ⟨(h.2.1 _ rfl).2, hwritten, h.2.2 _ _ hwritten⟩

end Tron

/-! ## One account in both formats -/

namespace Family

/-- **A key has one account in both formats.** Where its bytes are a point, each format writes a
text that it reads back as the account of the key, so either text is made from the other. Bytes that
are no point are refused alike. -/
theorem account_of_both_texts (key : Bytes) :
    (∃ account t s, Account.evm key = .ok account ∧ account.length = 20 ∧
      tron.encodeKey key = .ok t ∧ Tron.decode t = .ok account ∧
      evm.encodeKey key = .ok s ∧ Evm.parse s = .ok account ∧
      (Tron.decode t).map Evm.checksumText = .ok s ∧ (Evm.parse s).map Tron.encode = .ok t) ∨
    ∃ e, Account.evm key = .error e ∧ tron.encodeKey key = .error e ∧
      evm.encodeKey key = .error e := by
  cases haccount : Account.evm key with
  | error e =>
    right
    refine ⟨e, rfl, ?_, ?_⟩
    · rw [encodeKey, haccount]
      rfl
    · rw [encodeKey, haccount]
      rfl
  | ok account =>
    left
    have hlen : account.length = 20 := Account.length_of_evm haccount
    have htron : Tron.decode (Tron.encode account) = .ok account :=
      Tron.decode_eq_ok_iff.2 ⟨rfl, hlen⟩
    have hevm : Evm.parse (Evm.checksumText account) = .ok account := Evm.parse_textBy hlen
    refine ⟨account, _, _, rfl, hlen, map_eq_ok_iff.2 ⟨account, haccount, rfl⟩, htron,
      map_eq_ok_iff.2 ⟨account, haccount, rfl⟩, hevm, ?_, ?_⟩
    · rw [htron]
      rfl
    · rw [hevm]
      rfl

end Family

end CoinAddress
