import CoinAddress.Log.Entry
import CoinAddress.Proofs.LetterCase
import CoinAddress.Proofs.Numeral

/-!
# What a log tells of a value

An entry stores a value in the form in which it may be shown, so two values are told apart just if
these forms differ: `LogEntry.field_eq_iff`. A hidden value tells its size, and if it is very short
not even that: `hidden_eq_iff`. A shortened one is hidden as well or tells its first and its last
characters and nothing else: `shortened_eq_iff`.

So values that agree in what the class of their field lets show leave the same entry behind,
`LogEntry.field_eq_of_alike`, and so do any number of them, one after another.
-/

namespace CoinAddress

namespace Redaction

/-! ## Names of fields -/

/-- Whether a name has one of some words in it, in any letter case. -/
def HasWord (words : List String) (name : Text) : Prop :=
  ∃ w ∈ words, w.toList <:+: Text.toLower name

/-- Names of secrets. -/
def NamesSecret (name : Text) : Prop := HasWord ["private", "secret", "seed", "mnemonic"] name

/-- Names of public key material that do not name a secret. -/
def NamesKey (name : Text) : Prop :=
  ¬ NamesSecret name ∧ HasWord ["pubkey", "public_key", "chain_code"] name

/-- Names of addresses that name neither a secret nor key material. -/
def NamesAddress (name : Text) : Prop :=
  ¬ NamesSecret name ∧ ¬ HasWord ["pubkey", "public_key", "chain_code"] name ∧
    HasWord ["address"] name

theorem occursIn_iff {needle s : Text} : occursIn needle s = true ↔ needle <:+: s := by
  induction s with
  | nil => rw [occursIn, List.isEmpty_iff, List.infix_nil]
  | cons c s ih =>
    rw [occursIn, Bool.or_eq_true, ih, List.isPrefixOf_iff_prefix, List.infix_cons_iff]

section

variable {name : Text}

theorem any_occursIn_iff (words : List String) :
    ((words.map String.toList).any fun w => occursIn w (Text.toLower name)) = true ↔
      HasWord words name := by
  simp [HasWord, occursIn_iff]

theorem any_secretWords_iff :
    (secretWords.any fun w => occursIn w (Text.toLower name)) = true ↔ NamesSecret name :=
  any_occursIn_iff ["private", "secret", "seed", "mnemonic"]

theorem any_keyWords_iff : (keyWords.any fun w => occursIn w (Text.toLower name)) = true ↔
    HasWord ["pubkey", "public_key", "chain_code"] name :=
  any_occursIn_iff ["pubkey", "public_key", "chain_code"]

/-- Of a secret only its size can show. -/
theorem redact_of_secret (h : NamesSecret name) : redact name = hidden := by
  funext value
  unfold redact visibilityOf
  simp only [if_pos (any_secretWords_iff.2 h)]

theorem redact_of_key (h : NamesKey name) : redact name = shortenedKey := by
  obtain ⟨hsecret, hkey⟩ := h
  funext value
  unfold redact visibilityOf
  simp only [if_neg (mt any_secretWords_iff.1 hsecret), if_pos (any_keyWords_iff.2 hkey)]

theorem redact_of_address (h : NamesAddress name) : redact name = shortenedAddress := by
  obtain ⟨hsecret, hkey, haddress⟩ := h
  have hword : occursIn "address".toList (Text.toLower name) = true := by
    obtain ⟨w, hw, hin⟩ := haddress
    rw [List.mem_singleton] at hw
    subst hw
    exact occursIn_iff.2 hin
  funext value
  unfold redact visibilityOf
  simp only [if_neg (mt any_secretWords_iff.1 hsecret), if_neg (mt any_keyWords_iff.1 hkey),
    if_pos hword]

end

/-! ## Hidden values -/

theorem byteSize_eq_zero_iff {s : Text} : s.byteSize = 0 ↔ s = [] := by
  cases s with
  | nil => simp [Text.byteSize]
  | cons c s =>
    have hpos := c.utf8Size_pos
    simp only [Text.byteSize_cons, reduceCtorEq, iff_false]
    omega

theorem ofNat_injective {m n : Nat} (h : Text.ofNat m = Text.ofNat n) : m = n := by
  rw [← Text.digitsValue_ofNat m, h, Text.digitsValue_ofNat]

/-- What shows of a hidden value is a function of its size. -/
theorem hidden_eq (v : Text) : hidden v =
    if v.byteSize = 0 then "[EMPTY]".toList
    else if v.byteSize ≤ 4 then "[REDACTED]".toList
    else "[REDACTED:".toList ++ (Text.ofNat v.byteSize ++ "chars]".toList) := by
  simp only [hidden, byteSize_eq_zero_iff, List.append_assoc]

/-- A size is shown in a text that is longer than the others. -/
theorem length_hidden (v : Text) : (hidden v).length =
    if v.byteSize = 0 then 7
    else if v.byteSize ≤ 4 then 10
    else 16 + (Text.ofNat v.byteSize).length := by
  rw [hidden_eq]
  split_ifs
  · rfl
  · rfl
  · rw [List.length_append, List.length_append, Nat.add_comm (Text.ofNat v.byteSize).length,
      ← Nat.add_assoc]
    rfl

theorem length_ofNat_pos (n : Nat) : 0 < (Text.ofNat n).length :=
  List.length_pos_of_ne_nil Nat.toDigits_ne_nil

/-- **A hidden value tells its size,** unless that is from one to four bytes. -/
theorem hidden_eq_iff {v w : Text} : hidden v = hidden w ↔ v.byteSize = w.byteSize ∨
    (0 < v.byteSize ∧ v.byteSize ≤ 4) ∧ 0 < w.byteSize ∧ w.byteSize ≤ 4 := by
  constructor
  · intro h
    have hlen := congrArg List.length h
    have hv := length_ofNat_pos v.byteSize
    have hw := length_ofNat_pos w.byteSize
    rw [length_hidden, length_hidden] at hlen
    by_cases hlong : 4 < v.byteSize ∧ 4 < w.byteSize
    · rw [hidden_eq, hidden_eq, if_neg (by omega), if_neg (by omega), if_neg (by omega),
        if_neg (by omega)] at h
      have hsizes := List.append_cancel_right (List.append_cancel_left h)
      exact .inl (ofNat_injective hsizes)
    · split_ifs at hlen <;> omega
  · rintro (h | ⟨hv, hw⟩)
    · rw [hidden_eq, h, ← hidden_eq]
    · rw [hidden_eq, hidden_eq, if_neg (by omega), if_pos hv.2, if_neg (by omega), if_pos hw.2]

/-! ## Shortened values -/

/-- Whether a value is long enough to be cut and plain ASCII, so that its ends are shown. -/
def ShowsEnds (most : Nat) (v : Text) : Prop := most < v.byteSize ∧ v.all Text.isAscii = true

/-- The last characters of a value. -/
def lastChars (n : Nat) (v : Text) : Text := v.drop (v.length - n)

section

variable {front front' back most most' : Nat} {v w : Text}

theorem shortened_of_shows (h : ShowsEnds most v) :
    shortened front back most v = v.take front ++ "...".toList ++ lastChars back v := by
  have hne : v ≠ [] := fun hnil => by simp [hnil, ShowsEnds, Text.byteSize] at h
  rw [shortened, if_neg hne, if_neg (by simp [h.1, h.2])]
  rfl

theorem shortened_of_not_shows (h : ¬ ShowsEnds most v) :
    shortened front back most v = hidden v := by
  rw [shortened]
  split_ifs with hnil hhide
  · rw [hnil]
    rfl
  · rfl
  · refine absurd ⟨?_, ?_⟩ h
    · omega
    · simpa using fun hc => hhide (.inr hc)

theorem length_of_shows (h : ShowsEnds most v) : most < v.length := by
  have hsize := h.1
  rwa [Text.byteSize_of_ascii h.2] at hsize

/-- Ends that do not overlap, and whose text is as long as that of no hidden value. -/
structure Fits (front back most : Nat) : Prop where
  apart : front + back ≤ most
  long : 8 ≤ front + back
  short : front + back ≤ 13

theorem length_shortened_of_shows (hfit : Fits front back most) (h : ShowsEnds most v) :
    (shortened front back most v).length = front + back + 3 := by
  have hlen := length_of_shows h
  have hapart := hfit.apart
  rw [shortened_of_shows h, lastChars, List.length_append, List.length_append, List.length_take,
    List.length_drop, show "...".toList.length = 3 from rfl]
  omega

/-- A shortened value is not taken for a hidden one. -/
theorem shortened_ne_hidden (hfit : Fits front back most) (h : ShowsEnds most v) :
    shortened front back most v ≠ hidden w := by
  intro heq
  have hlen := congrArg List.length heq
  have hsize := length_ofNat_pos w.byteSize
  have hlong := hfit.long
  have hshort := hfit.short
  rw [length_shortened_of_shows hfit h, length_hidden] at hlen
  split_ifs at hlen <;> omega

theorem shortened_eq_iff_of_shows (hfit : Fits front back most) (hfit' : Fits front' back most')
    (hv : ShowsEnds most v) (hw : ShowsEnds most' w) :
    shortened front back most v = shortened front' back most' w ↔
      v.take front = w.take front' ∧ lastChars back v = lastChars back w := by
  have hlen := length_of_shows hv
  have hlen' := length_of_shows hw
  have hapart := hfit.apart
  have hapart' := hfit'.apart
  rw [shortened_of_shows hv, shortened_of_shows hw]
  constructor
  · intro h
    have hback : (lastChars back v).length = (lastChars back w).length := by
      rw [lastChars, lastChars, List.length_drop, List.length_drop]
      omega
    obtain ⟨hmarked, hlast⟩ := List.append_inj' h hback
    exact ⟨List.append_cancel_right hmarked, hlast⟩
  · rintro ⟨hfront, hlast⟩
    rw [hfront, hlast]

/-- **A shortened value tells its ends,** unless it is hidden; and the two do not look alike. -/
theorem shortened_eq_iff (hfit : Fits front back most) (hfit' : Fits front' back most') :
    shortened front back most v = shortened front' back most' w ↔
      (¬ ShowsEnds most v ∧ ¬ ShowsEnds most' w ∧ hidden v = hidden w) ∨
      ShowsEnds most v ∧ ShowsEnds most' w ∧ v.take front = w.take front' ∧
        lastChars back v = lastChars back w := by
  by_cases hv : ShowsEnds most v
  · by_cases hw : ShowsEnds most' w
    · rw [shortened_eq_iff_of_shows hfit hfit' hv hw]
      simp [hv, hw]
    · have hne := shortened_ne_hidden hfit hv (w := w)
      rw [shortened_of_not_shows hw]
      simp [hv, hw, hne]
  · by_cases hw : ShowsEnds most' w
    · have hne := shortened_ne_hidden hfit' hw (w := v)
      rw [shortened_of_not_shows hv, eq_comm]
      simp [hv, hw, hne]
    · rw [shortened_of_not_shows hv, shortened_of_not_shows hw]
      simp [hv, hw]

end

/-! ## Values that are not told apart -/

/-- What shows of key material is cut from this: the value without white space at its ends and
without one mark. -/
def keyDigits (v : Text) : Text := Hex.withoutMark (Text.trim v)

/-- Digits of key material, of one size, of which a log shows the same: so few that they are hidden,
or not plain ASCII, or with the same ends. -/
inductive AlikeKeys (v w : Text) : Prop
  | few (hfew : v.byteSize ≤ 16)
  | wide (hv : v.all Text.isAscii = false) (hw : w.all Text.isAscii = false)
  | ends (hv : v.all Text.isAscii = true) (hw : w.all Text.isAscii = true)
      (hfront : v.take 8 = w.take 8) (hback : lastChars 4 v = lastChars 4 w)

/-- Addresses, of one size, of which a log shows the same: not plain ASCII, or with the same ends,
of which the first is longer behind a mark. -/
inductive AlikeAddresses (v w : Text) : Prop
  | wide (hv : v.all Text.isAscii = false) (hw : w.all Text.isAscii = false)
  | marked (hv : v.all Text.isAscii = true) (hw : w.all Text.isAscii = true)
      (hmark : ['0', 'x'] <+: v) (hmark' : ['0', 'x'] <+: w) (hfront : v.take 8 = w.take 8)
      (hback : lastChars 4 v = lastChars 4 w)
  | unmarked (hv : v.all Text.isAscii = true) (hw : w.all Text.isAscii = true)
      (hmark : ¬ ['0', 'x'] <+: v) (hmark' : ¬ ['0', 'x'] <+: w) (hfront : v.take 6 = w.take 6)
      (hback : lastChars 4 v = lastChars 4 w)

/-- Two values that a log does not tell apart in a field of this name. -/
inductive Alike (name v w : Text) : Prop
  | secret (hname : NamesSecret name) (hsize : v.byteSize = w.byteSize)
  | key (hname : NamesKey name) (hsize : (keyDigits v).byteSize = (keyDigits w).byteSize)
      (h : AlikeKeys (keyDigits v) (keyDigits w))
  | address (hname : NamesAddress name) (hsize : (Text.trim v).byteSize = (Text.trim w).byteSize)
      (h : AlikeAddresses (Text.trim v) (Text.trim w))

section

variable {front front' back most most' : Nat} {v w : Text}

/-- Of values that are both hidden the same shows if they have one size. -/
theorem shortened_eq_of_not_shows (hsize : v.byteSize = w.byteSize) (hv : ¬ ShowsEnds most v)
    (hw : ¬ ShowsEnds most' w) : shortened front back most v = shortened front' back most' w := by
  rw [shortened_of_not_shows hv, shortened_of_not_shows hw]
  exact hidden_eq_iff.2 (.inl hsize)

theorem not_shows_of_wide (h : v.all Text.isAscii = false) : ¬ ShowsEnds most v := by
  rintro ⟨-, hascii⟩
  rw [h] at hascii
  cases hascii

theorem shortened_eq_of_ends (hsize : v.byteSize = w.byteSize) (hv : v.all Text.isAscii = true)
    (hw : w.all Text.isAscii = true) (hfit : Fits front back most)
    (hfront : v.take front = w.take front) (hback : lastChars back v = lastChars back w) :
    shortened front back most v = shortened front back most w := by
  by_cases hlong : most < v.byteSize
  · exact (shortened_eq_iff hfit hfit).2
      (.inr ⟨⟨hlong, hv⟩, ⟨hsize ▸ hlong, hw⟩, hfront, hback⟩)
  · exact shortened_eq_of_not_shows hsize (fun h => hlong h.1) fun h => hlong (hsize ▸ h.1)

theorem AlikeKeys.shortened_eq (hsize : v.byteSize = w.byteSize) (h : AlikeKeys v w) :
    shortened 8 4 16 v = shortened 8 4 16 w := by
  cases h with
  | few hfew =>
    exact shortened_eq_of_not_shows hsize (fun h => absurd h.1 (Nat.not_lt.2 hfew))
      fun h => absurd h.1 (Nat.not_lt.2 (hsize ▸ hfew))
  | wide hv hw =>
    exact shortened_eq_of_not_shows hsize (not_shows_of_wide hv) (not_shows_of_wide hw)
  | ends hv hw hfront hback =>
    exact shortened_eq_of_ends hsize hv hw ⟨by decide, by decide, by decide⟩ hfront hback

theorem addressFront_of_marked (h : ['0', 'x'] <+: v) : addressFront v = 8 := by
  obtain ⟨s, rfl⟩ := h
  rfl

theorem addressFront_of_not_marked (h : ¬ ['0', 'x'] <+: v) : addressFront v = 6 := by
  unfold addressFront
  split
  · exact absurd ⟨_, rfl⟩ h
  · rfl

theorem AlikeAddresses.shortened_eq (hsize : v.byteSize = w.byteSize) (h : AlikeAddresses v w) :
    shortened (addressFront v) 4 (addressFront v + 4 + 3) v =
      shortened (addressFront w) 4 (addressFront w + 4 + 3) w := by
  cases h with
  | wide hv hw =>
    exact shortened_eq_of_not_shows hsize (not_shows_of_wide hv) (not_shows_of_wide hw)
  | marked hv hw hmark hmark' hfront hback =>
    rw [addressFront_of_marked hmark, addressFront_of_marked hmark']
    exact shortened_eq_of_ends hsize hv hw ⟨by decide, by decide, by decide⟩ hfront hback
  | unmarked hv hw hmark hmark' hfront hback =>
    rw [addressFront_of_not_marked hmark, addressFront_of_not_marked hmark']
    exact shortened_eq_of_ends hsize hv hw ⟨by decide, by decide, by decide⟩ hfront hback

end

/-- What shows of alike values is the same. -/
theorem Alike.redact_eq {name v w : Text} (h : Alike name v w) : redact name v = redact name w := by
  cases h with
  | secret hname hsize =>
    rw [redact_of_secret hname]
    exact hidden_eq_iff.2 (.inl hsize)
  | key hname hsize h =>
    rw [redact_of_key hname]
    exact h.shortened_eq hsize
  | address hname hsize h =>
    rw [redact_of_address hname]
    exact h.shortened_eq hsize

end Redaction

namespace LogEntry

open Redaction

/-- A field has what may be shown of its value, behind the fields that were there. -/
@[simp] theorem fields_field (entry : LogEntry) (name value : Text) :
    (entry.field name value).fields = entry.fields ++ [(name, redact name value)] := rfl

/-- Entries tell two values of a field apart just if what may be shown of them differs. -/
theorem field_eq_iff {name v w : Text} {entry : LogEntry} :
    entry.field name v = entry.field name w ↔ redact name v = redact name w := by
  constructor
  · intro h
    have hfields := congrArg fields h
    rw [fields_field, fields_field] at hfields
    simpa using hfields
  · intro h
    rw [field, h, field]

/-- **A field of a log does not tell alike values apart:** the entry is the same whichever of them
was added, and so is its text. It has one field more, with what may be shown of the value. -/
theorem field_eq_of_alike {name v w : Text} (h : Alike name v w) (entry : LogEntry) :
    entry.field name v = entry.field name w ∧
      (entry.field name v).render = (entry.field name w).render ∧
      (entry.field name v).fields = entry.fields ++ [(name, redact name v)] := by
  have hfield : entry.field name v = entry.field name w := field_eq_iff.2 h.redact_eq
  exact ⟨hfield, by rw [hfield], fields_field entry name v⟩

/-- An entry without fields. -/
def sampleEntry : LogEntry := start .info "vault".toList "opened".toList

/-- A phrase, a key and an address, each beside one of which a log shows the same. -/
theorem field_eq_of_alike_samples :
    (sampleEntry.field "wallet_SEED".toList "abandon abandon about".toList =
        sampleEntry.field "wallet_SEED".toList "zoo zoo zoo zoo wrong".toList ∧
      (sampleEntry.field "wallet_SEED".toList "abandon abandon about".toList).fields =
        [("wallet_SEED".toList, "[REDACTED:21chars]".toList)]) ∧
    (sampleEntry.field "pubkey".toList "0x02c823f633177efe8aa3642c".toList =
        sampleEntry.field "pubkey".toList " 02c823f6000000000000642c".toList ∧
      (sampleEntry.field "pubkey".toList "0x02c823f633177efe8aa3642c".toList).fields =
        [("pubkey".toList, "02c823f6...642c".toList)]) ∧
    sampleEntry.field "Address".toList "0x5aeda56215b167893e80".toList =
        sampleEntry.field "Address".toList "0x5aeda500000000003e80\n".toList ∧
      (sampleEntry.field "Address".toList "0x5aeda56215b167893e80".toList).fields =
        [("Address".toList, "0x5aeda5...3e80".toList)] := by
  have hsecret : NamesSecret "wallet_SEED".toList := any_secretWords_iff.1 (by decide +kernel)
  have hkey : NamesKey "pubkey".toList :=
    ⟨mt any_secretWords_iff.2 (by decide +kernel), any_keyWords_iff.1 (by decide +kernel)⟩
  have haddress : NamesAddress "Address".toList :=
    ⟨mt any_secretWords_iff.2 (by decide +kernel), mt any_keyWords_iff.2 (by decide +kernel),
      (any_occursIn_iff ["address"]).1 (by decide +kernel)⟩
  have hphrases :
      Alike "wallet_SEED".toList "abandon abandon about".toList "zoo zoo zoo zoo wrong".toList :=
    .secret hsecret (by decide +kernel)
  have hkeys : Alike "pubkey".toList "0x02c823f633177efe8aa3642c".toList
      " 02c823f6000000000000642c".toList := by
    refine .key hkey (by decide +kernel) (.ends ?_ ?_ ?_ ?_)
    all_goals decide +kernel
  have haddresses : Alike "Address".toList "0x5aeda56215b167893e80".toList
      "0x5aeda500000000003e80\n".toList := by
    refine .address haddress (by decide +kernel) (.marked ?_ ?_ ?_ ?_ ?_ ?_)
    all_goals decide +kernel
  obtain ⟨hphrase, -, hphrase'⟩ := field_eq_of_alike hphrases sampleEntry
  obtain ⟨hpub, -, hpub'⟩ := field_eq_of_alike hkeys sampleEntry
  obtain ⟨haddr, -, haddr'⟩ := field_eq_of_alike haddresses sampleEntry
  refine ⟨⟨hphrase, hphrase'.trans ?_⟩, ⟨hpub, hpub'.trans ?_⟩, haddr, haddr'.trans ?_⟩
  all_goals decide +kernel

/-- Entries that are built of alike values are the same, whatever the number of their fields. -/
theorem foldl_field_eq_of_alike {fs gs : List (Text × Text)}
    (h : List.Forall₂ (fun f g => f.1 = g.1 ∧ (f.2 = g.2 ∨ Alike f.1 f.2 g.2)) fs gs)
    (entry : LogEntry) : fs.foldl (fun e f => e.field f.1 f.2) entry =
      gs.foldl (fun e g => e.field g.1 g.2) entry := by
  induction h generalizing entry with
  | nil => rfl
  | @cons f g fs gs hfg _ ih =>
    obtain ⟨hname, hvalue⟩ := hfg
    have hstep : entry.field f.1 f.2 = entry.field g.1 g.2 := by
      rw [← hname]
      rcases hvalue with hsame | halike
      · rw [hsame]
      · exact field_eq_iff.2 halike.redact_eq
    rw [List.foldl_cons, List.foldl_cons, hstep, ih]

end LogEntry

end CoinAddress
