import CoinAddress.Proofs.FamilyText

/-!
# No text belongs to two families

What a text looks like from the outside tells its family: whether there is a colon in it, how long
it is, and which characters it starts with. A `Mark` is such a description. Each text that a family
accepts fits one of the family's marks (`exists_mark_of_validate`), and the marks of the families
of two chains exclude each other (`separate_of_family_ne`), each pair in its own way.

Solana is left out: it accepts any Base58 text of 32 bytes and has no mark.
-/

namespace CoinAddress

/-! ## Marks -/

/-- The outside of a text: a colon or none, bounds for the length, and the characters that are
admitted at the first positions. -/
structure Mark where
  colon : Bool
  shortest : Nat
  longest? : Option Nat
  start : List Text

namespace Mark

/-- Whether the characters of a text are admitted at the first positions. -/
def admits : List Text → Text → Prop
  | [], _ => True
  | _ :: _, [] => False
  | admitted :: rest, c :: s => c ∈ admitted ∧ admits rest s

/-- Whether a text looks as described. -/
structure Fits (m : Mark) (s : Text) : Prop where
  colon : ':' ∈ s ↔ m.colon = true
  shortest : m.shortest ≤ s.length
  longest : ∀ n, m.longest? = some n → s.length ≤ n
  start : admits m.start s

/-- Whether some position admits no character in common. -/
def clash : List Text → List Text → Bool
  | a :: as, b :: bs => (a.all fun c => !b.elem c) || clash as bs
  | _, _ => false

/-- Whether all texts of one mark are shorter than those of the other. -/
def shorter (a b : Mark) : Bool := a.longest?.any fun n => decide (n < b.shortest)

/-- Whether two marks contradict each other. -/
def excludes (a b : Mark) : Bool :=
  a.colon != b.colon || a.shorter b || b.shorter a || clash a.start b.start

/-- No text has two starts that clash. -/
theorem not_admits_of_clash {as bs : List Text} (h : clash as bs) (s : Text) :
    ¬ (admits as s ∧ admits bs s) := by
  induction as generalizing bs s with
  | nil => cases h
  | cons a as ih =>
    cases bs with
    | nil => cases h
    | cons b bs =>
      rintro ⟨ha, hb⟩
      cases s with
      | nil => exact ha
      | cons c s =>
        rw [clash, Bool.or_eq_true] at h
        rcases h with h | h
        · have hc := List.all_eq_true.1 h c ha.1
          simp [hb.1] at hc
        · exact ih h s ⟨ha.2, hb.2⟩

theorem lt_of_shorter {a b : Mark} (h : a.shorter b) {s t : Text} (ha : a.Fits s)
    (hb : b.Fits t) : s.length < t.length := by
  cases hn : a.longest? with
  | none => simp [shorter, hn] at h
  | some n =>
    have hlt : n < b.shortest := by simpa [shorter, hn] using h
    exact Nat.lt_of_le_of_lt (ha.longest n hn) (Nat.lt_of_lt_of_le hlt hb.shortest)

/-- **No text fits two marks that exclude each other.** -/
theorem not_fits_of_excludes {a b : Mark} (h : a.excludes b) {s : Text} (ha : a.Fits s)
    (hb : b.Fits s) : False := by
  simp only [excludes, Bool.or_eq_true] at h
  rcases h with ((h | h) | h) | h
  · rw [bne_iff_ne] at h
    exact h (Bool.eq_iff_iff.2 (ha.colon.symm.trans hb.colon))
  · exact Nat.lt_irrefl _ (lt_of_shorter h ha hb)
  · exact Nat.lt_irrefl _ (lt_of_shorter h hb ha)
  · exact not_admits_of_clash h s ⟨ha.start, hb.start⟩

/-- The mark of the texts of one length without a colon. -/
def ofLength (n : Nat) (start : List Text) : Mark := ⟨false, n, some n, start⟩

theorem fits_ofLength {n : Nat} {start : List Text} {s : Text} (hcolon : ':' ∉ s)
    (hlen : s.length = n) (hstart : admits start s) : (ofLength n start).Fits s where
  colon := by simp [ofLength, hcolon]
  shortest := Nat.le_of_eq hlen.symm
  longest := by
    rintro k hk
    cases hk
    exact Nat.le_of_eq hlen
  start := hstart

/-! ### Texts in either letter case -/

/-- The characters of a text in small letters, each in both cases. -/
def bothCases (s : Text) : List Text := s.map fun c => [c, c.toUpper]

/-- A start in small letters is one of the starts in either letter case. -/
theorem admits_bothCases (start rest : Text) {s : Text} (h : s.map Char.toLower = start ++ rest) :
    admits (bothCases start) s := by
  induction start generalizing s with
  | nil => trivial
  | cons c start ih =>
    cases s with
    | nil => cases h
    | cons d s =>
      rw [List.map_cons, List.cons_append, List.cons.injEq] at h
      refine ⟨?_, ih h.2⟩
      rw [List.mem_cons, List.mem_singleton]
      by_cases hd : d.isUpper
      · refine .inr ?_
        rw [← h.1, Text.toUpper_toLower]
        exact (Text.toUpper_of_not_isLower (Text.not_isLower_of_isUpper hd)).symm
      · rw [Text.toLower_of_not_isUpper hd] at h
        exact .inl h.1

theorem colon_mem_map_toLower {s : Text} : ':' ∈ s.map Char.toLower ↔ ':' ∈ s := by
  rw [List.mem_map]
  constructor
  · rintro ⟨c, hc, heq⟩
    rwa [(Text.toLower_eq_iff_of_not_isAlpha (by decide)).1 heq] at hc
  · exact fun h => ⟨':', h, by decide⟩

end Mark

/-! ## The marks of the families -/

namespace Family

/-- The marks of a family. Of the formats whose parameter is a number only those parameters that
chains have are described. -/
def marks : Family → List Mark
  | base58Check [0x1e] => [.ofLength 34 ["D".toList]]
  | base58Check [0x4c] => [.ofLength 34 ["X".toList]]
  | base58Check [0x1c, 0xb8] => [.ofLength 35 ["t".toList]]
  | segWit hrp =>
    [.ofLength (hrp.length + 40) (Mark.bothCases (hrp ++ ['1'])),
     .ofLength (hrp.length + 60) (Mark.bothCases (hrp ++ ['1']))]
  | cosmos hrp =>
    [.ofLength (hrp.length + 39) (Mark.bothCases (hrp ++ ['1'])),
     .ofLength (hrp.length + 59) (Mark.bothCases (hrp ++ ['1']))]
  | cashAddr label =>
    [⟨true, label.length + 43, some (label.length + 43), Mark.bothCases (label ++ [':'])⟩,
     .ofLength 42 [Base32.digits ++ Base32.digits.map Char.toUpper, "qpzrQPZR".toList]]
  | evm => [.ofLength 42 ["0".toList, "xX".toList]]
  | tron => [.ofLength 34 ["T".toList]]
  | ripple => [⟨false, 0, some 35, ["r".toList]⟩]
  | ss58 0 => [⟨false, 0, none, ["1".toList]⟩, .ofLength 49 ["V".toList]]
  | sui => [.ofLength 66 ["0".toList, "x".toList]]
  | ton => [.ofLength 48 ["EUk0".toList], ⟨true, 0, none, ["+-0123456789".toList]⟩]
  | base58Check _ | ss58 _ | solana => []

end Family

/-! ## Accepted texts fit a mark -/

namespace Mark

theorem colon_not_mem_base58 (bs : Bytes) : ':' ∉ Base58.encode bs := fun h => by
  have := Base58.mem_digits_of_mem_encode h
  revert this
  decide

/-- The texts of accounts under a version whose leading digit is known. -/
theorem fits_base58Check {version account : Bytes} {d k : Nat} (haccount : account.length = 20)
    (hver : version.head? ≠ some 0) (hne : version ≠ []) (hd : 0 < d) (hd58 : d < 58)
    (hlo : d * 58 ^ k ≤ Base58.number version * 256 ^ 24)
    (hhi : (Base58.number version + 1) * 256 ^ 24 ≤ (d + 1) * 58 ^ k) :
    (ofLength (k + 1) [[Base58.digit d]]).Fits (Base58Check.encode version account) := by
  have hlen : (account ++ Base58Check.checksum (version ++ account)).length = 24 := by
    rw [List.length_append, haccount, Base58Check.length_checksum]
  rw [← hlen] at hlo hhi
  obtain ⟨tail, htail, htail_len⟩ := Base58.encode_eq_cons hver hne hd hd58 hlo hhi
  rw [Base58Check.encode, Base58Check.withChecksum, List.append_assoc]
  refine fits_ofLength (colon_not_mem_base58 _) (by rw [htail, List.length_cons, htail_len]) ?_
  rw [htail]
  exact ⟨by simp, trivial⟩

/-- A text whose small letters are Bech32 under a human-readable part. -/
theorem fits_bech32 {hrp s : Text} {words : Bytes} {n : Nat} (hcolon : ':' ∉ hrp)
    (hwords : ∀ w ∈ words, w.toNat < 32) (hlen : words.length + 7 = n)
    (h : s.map Char.toLower = Bech32.textOf hrp words) :
    (ofLength (hrp.length + n) (bothCases (hrp ++ ['1']))).Fits s := by
  refine fits_ofLength ?_ ?_ (admits_bothCases _ _ (h.trans (Bech32.textOf_eq hrp words)))
  · rw [← colon_mem_map_toLower, h, Bech32.textOf, List.mem_append, List.mem_cons]
    rintro (hmem | hmem | hmem)
    · exact hcolon hmem
    · revert hmem
      decide
    · have := Base32.of_mem_encode (CyclicCode.lt_of_mem_withChecksum hwords) hmem
      revert this
      decide
  · rw [← List.length_map (f := Char.toLower), h, Bech32.length_textOf]
    omega

end Mark

namespace Family

/-- A program of 20 or 32 bytes has one of two lengths, behind the prefix and its separator. -/
theorem fits_segWit {hrp s : Text} (hcolon : ':' ∉ hrp) (h : (segWit hrp).validate s = .ok ()) :
    ∃ m ∈ (segWit hrp).marks, m.Fits s := by
  obtain ⟨program, hlen, -, -, htext⟩ := validate_segWit_iff.1 h
  rcases hlen with hlen | hlen
  · refine ⟨_, List.mem_cons_self,
      Mark.fits_bech32 hcolon Bech32.lt_of_mem_witnessWords ?_ htext⟩
    rw [List.length_cons, Regroup.length_ofBytes (by decide) (by decide), hlen]
  · refine ⟨_, List.mem_cons_of_mem _ List.mem_cons_self,
      Mark.fits_bech32 hcolon Bech32.lt_of_mem_witnessWords ?_ htext⟩
    rw [List.length_cons, Regroup.length_ofBytes (by decide) (by decide), hlen]

theorem fits_cosmos {hrp s : Text} (hcolon : ':' ∉ hrp) (h : (cosmos hrp).validate s = .ok ()) :
    ∃ m ∈ (cosmos hrp).marks, m.Fits s := by
  obtain ⟨payload, hlen, -, -, htext⟩ := validate_cosmos_iff.1 h
  rcases hlen with hlen | hlen
  · refine ⟨_, List.mem_cons_self, Mark.fits_bech32 hcolon Bech32.lt_of_mem_words ?_ htext⟩
    rw [Regroup.length_ofBytes (by decide) (by decide), hlen]
  · refine ⟨_, List.mem_cons_of_mem _ List.mem_cons_self,
      Mark.fits_bech32 hcolon Bech32.lt_of_mem_words ?_ htext⟩
    rw [Regroup.length_ofBytes (by decide) (by decide), hlen]

/-- A word in either letter case, behind any first word. -/
theorem admits_body {s : Text} {w₁ w₂ : UInt8} {ws : Bytes} (hw₁ : w₁.toNat < 32)
    (hw₂ : w₂.toNat < 4) (h : s.map Char.toLower = Base32.encode (w₁ :: w₂ :: ws)) :
    Mark.admits [Base32.digits ++ Base32.digits.map Char.toUpper, "qpzrQPZR".toList] s := by
  rw [Base32.encode_cons, Base32.encode_cons] at h
  have hboth := Mark.admits_bothCases [Base32.digit w₁, Base32.digit w₂] _ h
  match s, hboth with
  | [], hnone => exact hnone.elim
  | [_], hnone => exact hnone.2.elim
  | c :: d :: s, ⟨hc, hd, _⟩ =>
    have hmem : Base32.digit w₁ ∈ Base32.encode [w₁] := List.mem_singleton.2 rfl
    have hfirst : Base32.digit w₁ ∈ Base32.digits := Base32.of_mem_encode (by simpa using hw₁) hmem
    have hsecond : ∀ e ∈ List.range 4, Base32.digit (UInt8.ofNat e) ∈ "qpzr".toList ∧
        (Base32.digit (UInt8.ofNat e)).toUpper ∈ "QPZR".toList := by decide
    obtain ⟨hlow, hup⟩ := hsecond w₂.toNat (List.mem_range.2 hw₂)
    rw [UInt8.ofNat_toNat] at hlow hup
    refine ⟨?_, ?_, trivial⟩
    · rcases List.mem_cons.1 hc with rfl | hc
      · exact List.mem_append_left _ hfirst
      · rw [List.mem_singleton.1 hc]
        exact List.mem_append_right _ (List.mem_map_of_mem hfirst)
    · rw [show "qpzrQPZR".toList = "qpzr".toList ++ "QPZR".toList by decide]
      rcases List.mem_cons.1 hd with rfl | hd
      · exact List.mem_append_left _ hlow
      · rw [List.mem_singleton.1 hd]
        exact List.mem_append_right _ hup

/-- Without its label a text has 42 characters, of which the first two tell it apart. -/
theorem fits_cashAddr {label s : Text} (hcolon : ':' ∉ label)
    (h : (cashAddr label).validate s = .ok ()) : ∃ m ∈ (cashAddr label).marks, m.Fits s := by
  obtain ⟨version, hash, -, hversion, hlen, htext⟩ := (validate_cashAddr_iff hcolon).1 h
  rcases htext with htext | htext
  · have hlength : s.length = label.length + 43 := by
      rw [← List.length_map (f := Char.toLower), htext, List.length_append, List.length_cons,
        CashAddr.length_bodyOf hlen]
    refine ⟨_, List.mem_cons_self, ⟨?_, Nat.le_of_eq hlength.symm, ?_, ?_⟩⟩
    · rw [← Mark.colon_mem_map_toLower, htext]
      simp
    · rintro n hn
      cases hn
      exact Nat.le_of_eq hlength
    · refine Mark.admits_bothCases _ (CashAddr.bodyOf label version hash) ?_
      rw [htext, List.append_assoc]
      rfl
  · refine ⟨_, List.mem_cons_of_mem _ List.mem_cons_self, Mark.fits_ofLength ?_ ?_ ?_⟩
    · rw [← Mark.colon_mem_map_toLower, htext]
      exact CashAddr.colon_not_mem_bodyOf label version hash
    · rw [← List.length_map (f := Char.toLower), htext, CashAddr.length_bodyOf hlen]
    · match hash, hlen with
      | b :: bs, _ =>
        obtain ⟨w₁, w₂, ws, hwords, hw₂⟩ := CashAddr.ofBytes_version hversion b bs
        have hw₁ : w₁.toNat < 32 := Bech32.lt_of_mem_words w₁ (hwords ▸ List.mem_cons_self)
        rw [CashAddr.bodyOf, CashAddr.wordsWithChecksum, hwords] at htext
        exact admits_body hw₁ hw₂ htext

theorem colon_not_isDigit : Hex.isDigit ':' = false := by decide

theorem fits_evm {s : Text} (h : evm.validate s = .ok ()) : ∃ m ∈ evm.marks, m.Fits s := by
  obtain ⟨account, digits, hlen, hdigits, htext, -⟩ := validate_evm_iff.1 h
  have hcolon : ':' ∉ digits := by
    rw [← Mark.colon_mem_map_toLower, htext]
    intro hmem
    obtain ⟨d, hd, heq⟩ := Hex.exists_digit_of_mem_encode hmem
    have hdigit := Hex.digitValue?_digitChar hd
    rw [← heq] at hdigit
    cases hdigit
  have hlength : digits.length = 40 := by
    rw [← List.length_map (f := Char.toLower), htext, Hex.length_encode, hlen]
  refine ⟨_, List.mem_cons_self, ?_⟩
  rcases Evm.digitsOf_eq_ok_iff.1 hdigits with rfl | rfl
  · exact Mark.fits_ofLength (by simp [hcolon]) (by simp [hlength]) ⟨by decide, by decide, trivial⟩
  · exact Mark.fits_ofLength (by simp [hcolon]) (by simp [hlength]) ⟨by decide, by decide, trivial⟩

theorem fits_sui {s : Text} (h : sui.validate s = .ok ()) : ∃ m ∈ sui.marks, m.Fits s := by
  obtain ⟨digits, rfl, hlen, hdigits⟩ := validate_sui_iff.1 h
  have hcolon : ':' ∉ digits := fun hmem => by
    have := hdigits _ hmem
    rw [colon_not_isDigit] at this
    cases this
  exact ⟨_, List.mem_cons_self,
    Mark.fits_ofLength (by simp [hcolon]) (by simp [hlen]) ⟨by decide, by decide, trivial⟩⟩

theorem fits_tron {s : Text} (h : tron.validate s = .ok ()) : ∃ m ∈ tron.marks, m.Fits s := by
  obtain ⟨account, hlen, rfl⟩ := validate_tron_iff.1 h
  exact ⟨_, List.mem_cons_self, Mark.fits_base58Check (d := 26) (k := 33) hlen (by decide)
    (by decide) (by decide) (by decide) (by decide) (by decide)⟩

theorem fits_ripple {s : Text} (h : ripple.validate s = .ok ()) : ∃ m ∈ ripple.marks, m.Fits s := by
  obtain ⟨account, hlen, htext⟩ := validate_ripple_iff.1 h
  have hbound := Ripple.length_encode_lt htext
  have hcolon : ':' ∉ s := fun hmem => by
    have := Ripple.mem_alphabet_of_mem_encode htext hmem
    revert this
    decide
  obtain ⟨tail, htail⟩ := Ripple.encode_eq_cons account
  rw [htext] at htail
  cases htail
  refine ⟨_, List.mem_cons_self, ⟨by simp [hcolon], Nat.zero_le _, ?_, ⟨by decide, trivial⟩⟩⟩
  rintro n hn
  cases hn
  omega

theorem fits_ss58_zero {s : Text} (h : (ss58 0).validate s = .ok ()) :
    ∃ m ∈ (ss58 0).marks, m.Fits s := by
  obtain ⟨account, hlen, front, hfront, rfl⟩ := validate_ss58_iff.1 h
  rcases Ss58.eq_of_names_zero hfront with rfl | rfl
  · refine ⟨_, List.mem_cons_self, ⟨?_, Nat.zero_le _, (fun n hn => by cases hn), ?_⟩⟩
    · simp [Ss58.textOf, Mark.colon_not_mem_base58]
    · rw [Ss58.textOf_zero_short]
      exact ⟨by decide, trivial⟩
  · obtain ⟨tail, htail, htail_len⟩ := Ss58.textOf_zero_long hlen
    refine ⟨_, List.mem_cons_of_mem _ List.mem_cons_self, Mark.fits_ofLength ?_ ?_ ?_⟩
    · exact Mark.colon_not_mem_base58 _
    · rw [htail, List.length_cons, htail_len]
    · rw [htail]
      exact ⟨by decide, trivial⟩

theorem mem_digits_of_isDigit {c : Char} (h : c.isDigit) : c ∈ "+-0123456789".toList := by
  have hrange : 48 ≤ c.toNat ∧ c.toNat ≤ 57 := Char.isDigit_iff_toNat.1 h
  have hall : ∀ n ∈ List.range 58, 48 ≤ n → Char.ofNat n ∈ "+-0123456789".toList := by
    decide +kernel
  have hmem := hall c.toNat (List.mem_range.2 (by omega)) hrange.1
  rwa [Char.ofNat_toNat] at hmem

/-- A number starts with a sign or a digit. -/
theorem admits_of_numeral {s rest : Text} {n : Int} (h : Text.Numeral s n) :
    Mark.admits ["+-0123456789".toList] (s ++ rest) := by
  cases h with
  | plain hne hall =>
    cases s with
    | nil => exact absurd rfl hne
    | cons c digits =>
      rw [List.all_cons, Bool.and_eq_true] at hall
      exact ⟨mem_digits_of_isDigit hall.1, trivial⟩
  | plus => exact ⟨by decide, trivial⟩
  | minus => exact ⟨by decide, trivial⟩

/-- The top bits of the flags are the first character. -/
theorem admits_toTextIn (alphabet : Base64.Alphabet) (a : Ton.Address) :
    Mark.admits ["EUk0".toList] (a.toTextIn alphabet) := by
  obtain ⟨w, ws, hwords, hw⟩ := Regroup.ofBytes_cons (show 0 < 6 by decide) (by decide) a.flags
    (a.workchain.toInt8.toUInt8 :: (a.hash ++ Crc16.bytes a.body))
  have hfirst : ∀ bounceable testnet : Bool, alphabet.digits.getD
      (((if bounceable then Ton.bounceableFlags else Ton.nonBounceableFlags) |||
        (if testnet then Ton.testnetFlag else 0)).toNat >>> 2) 'A' ∈ "EUk0".toList := by
    cases alphabet <;> decide
  have htext : a.toTextIn alphabet = (w :: ws).map (Base64.digit alphabet) := by
    rw [← hwords]
    rfl
  rw [htext, List.map_cons]
  refine ⟨?_, trivial⟩
  rw [Base64.digit, hw]
  exact hfirst a.bounceable a.testnet

theorem fits_ton {s : Text} (h : ton.validate s = .ok ()) : ∃ m ∈ ton.marks, m.Fits s := by
  obtain ⟨a, ha⟩ := validate_ton_iff.1 h
  by_cases hcolon : ':' ∈ s
  · -- a raw address, of which only the start of the workchain matters
    refine ⟨_, List.mem_cons_of_mem _ List.mem_cons_self,
      ⟨by simp [hcolon], Nat.zero_le _, (fun n hn => by cases hn), ?_⟩⟩
    obtain ⟨-, workchain, hash, rfl, -, hraw⟩ := Ton.parse_raw_iff.1 ⟨ha, hcolon⟩
    exact admits_of_numeral hraw.workchain
  · obtain ⟨hworkchain, htext⟩ := (Ton.parse_eq_ok_iff hcolon).1 ha
    refine ⟨_, List.mem_cons_self, Mark.fits_ofLength hcolon ?_ ?_⟩
    · rw [htext, Ton.Address.toTextIn, Base64.length_encode]
      simp
    · rw [htext]
      exact admits_toTextIn _ a

/-- A version bounds the number that is written, and so fixes the first character. -/
theorem fits_base58Check_chains {version : Bytes} {s : Text}
    (hversion : version = [0x1e] ∨ version = [0x4c] ∨ version = [0x1c, 0xb8])
    (h : (base58Check version).validate s = .ok ()) :
    ∃ m ∈ (base58Check version).marks, m.Fits s := by
  obtain ⟨account, hlen, rfl⟩ := validate_base58Check_iff.1 h
  rcases hversion with rfl | rfl | rfl
  · exact ⟨_, List.mem_cons_self, Mark.fits_base58Check (d := 12) (k := 33) hlen (by decide)
      (by decide) (by decide) (by decide) (by decide) (by decide)⟩
  · exact ⟨_, List.mem_cons_self, Mark.fits_base58Check (d := 30) (k := 33) hlen (by decide)
      (by decide) (by decide) (by decide) (by decide) (by decide)⟩
  · exact ⟨_, List.mem_cons_self, Mark.fits_base58Check (d := 51) (k := 34) hlen (by decide)
      (by decide) (by decide) (by decide) (by decide) (by decide)⟩

end Family

/-! ## No text belongs to two families -/

/-- What a chain other than Solana accepts fits one of the marks of its family. -/
theorem exists_mark_of_validate {chain : Chain} (hchain : chain ≠ .solana) {s : Text}
    (h : chain.family.validate s = .ok ()) : ∃ m ∈ chain.family.marks, m.Fits s := by
  cases chain with
  | solana => exact absurd rfl hchain
  | dogecoin => exact Family.fits_base58Check_chains (.inl rfl) h
  | dash => exact Family.fits_base58Check_chains (.inr (.inl rfl)) h
  | zcash => exact Family.fits_base58Check_chains (.inr (.inr rfl)) h
  | bitcoin | litecoin => exact Family.fits_segWit (by decide) h
  | thorchain | cosmos | kujira | mayaChain | dydx | osmosis | noble | terra | terraClassic
  | akash => exact Family.fits_cosmos (by decide) h
  | bitcoinCash => exact Family.fits_cashAddr (by decide) h
  | ethereum | avalanche | bsc | arbitrum | base | optimism | polygon | blast | cronosChain
  | zksync => exact Family.fits_evm h
  | sui => exact Family.fits_sui h
  | polkadot => exact Family.fits_ss58_zero h
  | ton => exact Family.fits_ton h
  | ripple => exact Family.fits_ripple h
  | tron => exact Family.fits_tron h

/-- Whether all marks of two families exclude each other. -/
def Family.separate (f g : Family) : Bool := f.marks.all fun a => g.marks.all a.excludes

/-- Different families of chains have marks that exclude one another. -/
theorem separate_of_family_ne {c d : Chain} (h : c.family ≠ d.family) :
    c.family.separate d.family := by
  -- every pair of families is looked at, since each is kept apart in its own way
  have hall : Chain.all.all fun c => Chain.all.all fun d =>
      decide (c.family = d.family) || c.family.separate d.family := by decide +kernel
  have hpair := List.all_eq_true.1 (List.all_eq_true.1 hall c c.mem_all) d d.mem_all
  simpa [h] using hpair

/-- **No text is accepted by the chains of two families,** Solana apart. -/
theorem family_eq_of_validate {c d : Chain} {s : Text} (hc : c ≠ .solana) (hd : d ≠ .solana)
    (h₁ : validate c s = .ok ()) (h₂ : validate d s = .ok ()) : c.family = d.family := by
  by_contra hne
  obtain ⟨a, ha, hfit⟩ := exists_mark_of_validate hc (validate_eq_ok_iff.1 h₁)
  obtain ⟨b, hb, hfit'⟩ := exists_mark_of_validate hd (validate_eq_ok_iff.1 h₂)
  have hsep := List.all_eq_true.1 (separate_of_family_ne hne) a ha
  exact Mark.not_fits_of_excludes (List.all_eq_true.1 hsep b hb) hfit hfit'

/-- Two chains of one family accept one text. -/
theorem family_eq_of_validate_terra :
    validate .terra "terra15k6d28jvcv5hd989j2g6tk6jus2tk8xzlcph00".toList = .ok () ∧
      validate .terraClassic "terra15k6d28jvcv5hd989j2g6tk6jus2tk8xzlcph00".toList = .ok () ∧
        Chain.terra.family = Chain.terraClassic.family :=
  have hterra : validate .terra "terra15k6d28jvcv5hd989j2g6tk6jus2tk8xzlcph00".toList = .ok () := by
    decide +kernel
  have hclassic : validate .terraClassic "terra15k6d28jvcv5hd989j2g6tk6jus2tk8xzlcph00".toList =
      .ok () := by decide +kernel
  ⟨hterra, hclassic, family_eq_of_validate (by decide) (by decide) hterra hclassic⟩

end CoinAddress
