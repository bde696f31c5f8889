import CoinAddress.Json.Printer
import CoinAddress.Json.Token
import CoinAddress.Proofs.HexText

/-!
# How strings are written in JSON

A string is written character by character between quotation marks. A character stands as it is
unless it is a control character, a quotation mark or a backslash; a few have a short escape; and
every character is also written as a code unit of 16 bits in hexadecimal, or as a pair of such
units, each of which is then half of it. `StringWritten` says so. Reading takes just these texts:
`stringPieces?_of_written` and `exists_parts_of_stringPieces?`. The text in which a string is
printed is one of them: `stringWritten_quoted`.
-/

namespace CoinAddress.Json

/-! ## Pieces -/

/-- The letters of the short escapes, with the characters they stand for. -/
def shortEscapes : List (Char × Char) :=
  [('"', '"'), ('\\', '\\'), ('/', '/'), ('b', '\x08'), ('f', '\x0c'), ('n', '\n'), ('r', '\r'),
   ('t', '\t')]

/-- Four hexadecimal digits, in any letter case, of a code unit. -/
def SpellsUnit (s : Text) (n : Nat) : Prop :=
  ∃ a b c d, a < 16 ∧ b < 16 ∧ c < 16 ∧ d < 16 ∧ n = ((a * 16 + b) * 16 + c) * 16 + d ∧
    s.map Char.toLower = [a, b, c, d].map Hex.digitChar

namespace Piece

/-- What a code unit names: half of a pair, or a character. -/
def ofUnit (n : Nat) : Piece :=
  if 0xd800 ≤ n ∧ n ≤ 0xdfff then .half n else .char (Char.ofNat n)

/-- The texts of a piece inside a string: a character as it is, unless it needs an escape; a short
escape; or a code unit in hexadecimal. -/
inductive Written : Piece → Text → Prop
  | plain {c : Char} (hcontrol : 0x20 ≤ c.toNat) (hquote : c ≠ '"') (hescape : c ≠ '\\') :
      Written (.char c) [c]
  | short {letter c : Char} (h : (letter, c) ∈ shortEscapes) : Written (.char c) ['\\', letter]
  | unit {s : Text} {n : Nat} (h : SpellsUnit s n) : Written (ofUnit n) ('\\' :: 'u' :: s)

end Piece

theorem hexValue?_eq_digitValue? (c : Char) : hexValue? c = Hex.digitValue? c := by
  have hdigit : c.isDigit = true ↔ 0x30 ≤ c.toNat ∧ c.toNat ≤ 0x39 := Char.isDigit_iff_toNat
  have hsmall : 'a' ≤ c ∧ c ≤ 'f' ↔ 0x61 ≤ c.toNat ∧ c.toNat ≤ 0x66 := Iff.rfl
  have hlarge : 'A' ≤ c ∧ c ≤ 'F' ↔ 0x41 ≤ c.toNat ∧ c.toNat ≤ 0x46 := Iff.rfl
  simp only [hexValue?, Hex.digitValue?, hdigit, hsmall, hlarge]
  rfl

theorem unitPiece?_eq_some_iff {a b c d : Char} {p : Piece} :
    unitPiece? a b c d = some p ↔ ∃ n, SpellsUnit [a, b, c, d] n ∧ p = Piece.ofUnit n := by
  simp only [unitPiece?, hexValue?_eq_digitValue?, Option.bind_eq_bind, Option.bind_eq_some_iff,
    Hex.digitValue?_eq_some_iff, Option.some.injEq]
  constructor
  · rintro ⟨a', ⟨ha, ha'⟩, b', ⟨hb, hb'⟩, c', ⟨hc, hc'⟩, d', ⟨hd, hd'⟩, rfl⟩
    exact ⟨_, ⟨a', b', c', d', ha, hb, hc, hd, rfl, by simp [ha', hb', hc', hd']⟩, rfl⟩
  · rintro ⟨_, ⟨a', b', c', d', ha, hb, hc, hd, rfl, hs⟩, rfl⟩
    simp only [List.map_cons, List.map_nil, List.cons.injEq, and_true] at hs
    exact ⟨a', ⟨ha, hs.1⟩, b', ⟨hb, hs.2.1⟩, c', ⟨hc, hs.2.2.1⟩, d', ⟨hd, hs.2.2.2⟩, rfl⟩

theorem shortEscape?_eq_some_iff {letter c : Char} :
    shortEscape? letter = some c ↔ (letter, c) ∈ shortEscapes := by
  constructor
  · intro h
    unfold shortEscape? at h
    split_ifs at h with hself
    · cases h
      rcases hself with rfl | rfl | rfl <;> decide
    all_goals
      cases h
      subst letter
      decide
  · have hall : ∀ e ∈ shortEscapes, shortEscape? e.1 = some e.2 := by decide
    exact hall (letter, c)

/-- A piece is read first, then what follows it. -/
theorem stringPieces?_append {p : Piece} {u : Text} (h : p.Written u) (t : Text) :
    stringPieces? (u ++ t) = (stringPieces? t).map fun r => (p :: r.1, r.2) := by
  cases h with
  | plain hcontrol hquote hescape =>
    rw [List.singleton_append, stringPieces?]
    · rw [if_neg (by omega)]
    · simpa using hquote
    · rintro _ _ _ _ _ rfl
      simp at hescape
    · rintro rfl
      simp at hescape
    · rintro _ _ rfl
      simp at hescape
  | short h =>
    rw [List.cons_append, List.singleton_append, stringPieces?]
    · rw [shortEscape?_eq_some_iff.2 h]
    · rintro _ _ _ _ _ rfl
      simp [shortEscapes] at h
  | unit h =>
    obtain ⟨a, b, c, d, ha, hb, hc, hd, hn, hs⟩ := h
    obtain ⟨a', s, rfl, ha', hs⟩ := List.map_eq_cons_iff.1 hs
    obtain ⟨b', s, rfl, hb', hs⟩ := List.map_eq_cons_iff.1 hs
    obtain ⟨c', s, rfl, hc', hs⟩ := List.map_eq_cons_iff.1 hs
    obtain ⟨d', s, rfl, hd', hs⟩ := List.map_eq_cons_iff.1 hs
    cases List.map_eq_nil_iff.1 hs
    simp only [List.cons_append, List.nil_append, stringPieces?]
    rw [unitPiece?_eq_some_iff.2 ⟨_, ⟨a, b, c, d, ha, hb, hc, hd, hn, ?_⟩, rfl⟩]
    simp [ha', hb', hc', hd']

/-- A string that is read is made of pieces. -/
theorem exists_parts_of_stringPieces? {t rest : Text} {ps : List Piece}
    (h : stringPieces? t = some (ps, rest)) :
    ∃ parts, List.Forall₂ Piece.Written ps parts ∧ t = parts.flatten ++ '"' :: rest := by
  fun_induction stringPieces? t generalizing ps rest with
  | case1 => cases h
  | case2 s =>
    cases h
    exact ⟨[], .nil, rfl⟩
  | case3 a b c d s p hp ih =>
    obtain ⟨⟨qs, u⟩, hq, heq⟩ := Option.map_eq_some_iff.1 h
    cases heq
    obtain ⟨n, hn, rfl⟩ := unitPiece?_eq_some_iff.1 hp
    obtain ⟨parts, hparts, rfl⟩ := ih hq
    exact ⟨_ :: parts, .cons (.unit hn) hparts, by simp⟩
  | case4 => cases h
  | case5 => cases h
  | case6 e s _ c hc ih =>
    obtain ⟨⟨qs, u⟩, hq, heq⟩ := Option.map_eq_some_iff.1 h
    cases heq
    obtain ⟨parts, hparts, rfl⟩ := ih hq
    exact ⟨_ :: parts, .cons (.short (shortEscape?_eq_some_iff.1 hc)) hparts, by simp⟩
  | case7 => cases h
  | case8 => cases h
  | case9 c s hquote hunit hlone hshort hcontrol ih =>
    obtain ⟨⟨qs, u⟩, hq, heq⟩ := Option.map_eq_some_iff.1 h
    cases heq
    obtain ⟨parts, hparts, rfl⟩ := ih hq
    have hescape : c ≠ '\\' := by
      rintro rfl
      generalize hs : parts.flatten ++ '"' :: u = s at hlone hshort
      cases s with
      | nil => exact hlone rfl rfl
      | cons e s => exact hshort e s rfl rfl
    exact ⟨_ :: parts, .cons (.plain (by omega) hquote hescape) hparts, by simp⟩

/-! ## Strings -/

/-- The texts of a character inside a string: a piece, or two halves that name it together. -/
inductive CharWritten : Char → Text → Prop
  | piece {c : Char} {s : Text} (h : Piece.Written (.char c) s) : CharWritten c s
  | pair {high low : Nat} {s t : Text} (hhigh : 0xd800 ≤ high ∧ high < 0xdc00)
      (hlow : 0xdc00 ≤ low ∧ low < 0xe000) (hs : Piece.Written (.half high) s)
      (ht : Piece.Written (.half low) t) :
      CharWritten (Char.ofNat (0x10000 + (high - 0xd800) * 0x400 + (low - 0xdc00))) (s ++ t)

/-- The texts of a string: its characters in order, each in one of its texts, between quotation
marks. -/
def StringWritten (s t : Text) : Prop :=
  ∃ parts, List.Forall₂ CharWritten s parts ∧ t = '"' :: (parts.flatten ++ ['"'])

/-- Halves are halves of the range of the surrogates. -/
theorem Piece.Written.half_range {n : Nat} {s : Text} (h : Piece.Written (.half n) s) :
    0xd800 ≤ n ∧ n < 0xe000 := by
  generalize hp : Piece.half n = p at h
  cases h with
  | plain => cases hp
  | short => cases hp
  | @unit s m hs =>
    unfold ofUnit at hp
    split at hp
    · cases hp
      omega
    · cases hp

theorem exists_parts_of_textOfPieces? {ps : List Piece} {s : Text}
    (hs : textOfPieces? ps = some s) {parts : List Text}
    (h : List.Forall₂ Piece.Written ps parts) :
    ∃ parts', List.Forall₂ CharWritten s parts' ∧ parts'.flatten = parts.flatten := by
  fun_induction textOfPieces? ps generalizing s parts with
  | case1 =>
    cases hs
    cases h
    exact ⟨[], .nil, rfl⟩
  | case2 c ps ih =>
    obtain ⟨r, hr, rfl⟩ := Option.map_eq_some_iff.1 hs
    cases h with
    | cons hc hrest =>
      obtain ⟨parts', hparts, hflat⟩ := ih hr hrest
      exact ⟨_ :: parts', .cons (.piece hc) hparts, by simp [hflat]⟩
  | case3 high low ps hpair ih =>
    obtain ⟨r, hr, rfl⟩ := Option.map_eq_some_iff.1 hs
    cases h with
    | cons hhigh hrest =>
      cases hrest with
      | cons hlow hrest =>
        obtain ⟨parts', hparts, hflat⟩ := ih hr hrest
        exact ⟨_ :: parts', .cons (.pair ⟨hhigh.half_range.1, hpair.1⟩ ⟨hpair.2, hlow.half_range.2⟩
          hhigh hlow) hparts, by simp [hflat]⟩
  | case4 => cases hs
  | case5 => cases hs

/-- A character is read as one piece or as two halves. -/
theorem stringPieces?_append_char {c : Char} {u : Text} (h : CharWritten c u) :
    ∃ ps, (∀ t, stringPieces? (u ++ t) = (stringPieces? t).map fun r => (ps ++ r.1, r.2)) ∧
      ∀ qs, textOfPieces? (ps ++ qs) = (textOfPieces? qs).map (c :: ·) := by
  cases h with
  | piece h => exact ⟨[.char c], stringPieces?_append h, fun qs => rfl⟩
  | @pair high low _ _ hhigh hlow hs ht =>
    refine ⟨[.half high, .half low], fun t => ?_, fun qs => ?_⟩
    · rw [List.append_assoc, stringPieces?_append hs, stringPieces?_append ht, Option.map_map]
      rfl
    · rw [List.cons_append, List.singleton_append, textOfPieces?, if_pos ⟨hhigh.2, hlow.1⟩]

/-- Reading the text of a string up to its closing mark. -/
theorem stringPieces?_of_written {s : Text} {parts : List Text}
    (h : List.Forall₂ CharWritten s parts) (rest : Text) :
    ∃ ps, stringPieces? (parts.flatten ++ '"' :: rest) = some (ps, rest) ∧
      textOfPieces? ps = some s := by
  induction h with
  | nil => exact ⟨[], rfl, rfl⟩
  | cons hc hs ih =>
    obtain ⟨ps, hread, htext⟩ := stringPieces?_append_char hc
    obtain ⟨qs, hqs, hrest⟩ := ih
    refine ⟨ps ++ qs, ?_, ?_⟩
    · rw [List.flatten_cons, List.append_assoc, hread, hqs]
      rfl
    · rw [htext, hrest]
      rfl

/-! ## Writing -/

theorem spellsUnit_of_control {n : Nat} (h : n < 0x20) :
    SpellsUnit ['0', '0', hexDigit (n / 16), hexDigit (n % 16)] n := by
  have hlower : ∀ d < 16, (hexDigit d).toLower = Hex.digitChar d := by decide
  refine ⟨0, 0, n / 16, n % 16, by omega, by omega, by omega, by omega, by omega, ?_⟩
  simp only [List.map_cons, List.map_nil, hlower (n / 16) (by omega), hlower (n % 16) (by omega)]
  rfl

/-- A written character is one of its texts. -/
theorem charWritten_escape (c : Char) : CharWritten c (escape c) := by
  refine .piece ?_
  unfold escape
  split_ifs with hquote hescape _ _ _ _ _ hcontrol
  -- the seven short escapes come first, then the control characters and the rest
  rotate_left 7
  · have hunit : Piece.ofUnit c.toNat = .char c := by
      rw [Piece.ofUnit, if_neg (by omega), Char.ofNat_toNat]
    rw [← hunit]
    exact .unit (spellsUnit_of_control hcontrol)
  · exact .plain (by omega) hquote hescape
  all_goals
    subst c
    exact .short (by decide)

theorem stringWritten_quoted (s : Text) : StringWritten s (quoted s) := by
  refine ⟨s.map escape, ?_, ?_⟩
  · rw [List.forall₂_map_right_iff, List.forall₂_same]
    exact fun c _ => charWritten_escape c
  · rw [quoted, List.flatMap_def]
    rfl

end CoinAddress.Json
