import CoinAddress.Text.Basic

/-!
# The tokens of JSON

A text is cut into the six punctuation marks, strings, numbers and three words, with blanks
between them skipped. Nothing else is allowed, so a text that is no sequence of tokens is refused
as a whole.

Inside a string no control character may stand as it is. An escape by number names a code unit of
16 bits; two that form a surrogate pair name one character. A half that stands alone leaves the
string without a text, and its token is `str none`.

Each token takes at least one character, which is why cutting ends.
-/

namespace CoinAddress.Json

/-- A token. -/
inductive Token where
  | openArr
  | closeArr
  | openObj
  | closeObj
  | colon
  | comma
  | word (b : Option Bool)
  | num (spelling : Text)
  | str (s : Option Text)
  deriving DecidableEq, Repr

/-! ## Strings -/

/-- A piece of a string: a character, or half of a surrogate pair. -/
inductive Piece where
  | char (c : Char)
  | half (unit : Nat)
  deriving DecidableEq, Repr

/-- The value of a hexadecimal digit. -/
def hexValue? (c : Char) : Option Nat :=
  if c.isDigit then some (c.toNat - '0'.toNat)
  else if 'a' ≤ c ∧ c ≤ 'f' then some (c.toNat - 'a'.toNat + 10)
  else if 'A' ≤ c ∧ c ≤ 'F' then some (c.toNat - 'A'.toNat + 10)
  else none

/-- The piece that four hexadecimal digits name. -/
def unitPiece? (a b c d : Char) : Option Piece := do
  let n := (((← hexValue? a) * 16 + (← hexValue? b)) * 16 + (← hexValue? c)) * 16 + (← hexValue? d)
  some (if 0xd800 ≤ n ∧ n ≤ 0xdfff then .half n else .char (Char.ofNat n))

/-- The character of a short escape. -/
def shortEscape? (c : Char) : Option Char :=
  if c = '"' ∨ c = '\\' ∨ c = '/' then some c
  else if c = 'b' then some '\x08'
  else if c = 'f' then some '\x0c'
  else if c = 'n' then some '\n'
  else if c = 'r' then some '\r'
  else if c = 't' then some '\t'
  else none

/-- The pieces of a string up to its closing mark, and the text behind it. -/
def stringPieces? : Text → Option (List Piece × Text)
  | [] => none
  | '"' :: s => some ([], s)
  | '\\' :: 'u' :: a :: b :: c :: d :: s =>
    match unitPiece? a b c d with
    | some p => (stringPieces? s).map fun r => (p :: r.1, r.2)
    | none => none
  | ['\\'] => none
  | '\\' :: e :: s =>
    match shortEscape? e with
    | some c => (stringPieces? s).map fun r => (.char c :: r.1, r.2)
    | none => none
  | c :: s =>
    if c.toNat < 0x20 then none else (stringPieces? s).map fun r => (.char c :: r.1, r.2)

/-- The text of some pieces, if every half has its other half behind or before it. -/
def textOfPieces? : List Piece → Option Text
  | [] => some []
  | .char c :: ps => (textOfPieces? ps).map (c :: ·)
  | .half high :: .half low :: ps =>
    if high < 0xdc00 ∧ 0xdc00 ≤ low then
      (textOfPieces? ps).map
        (Char.ofNat (0x10000 + (high - 0xd800) * 0x400 + (low - 0xdc00)) :: ·)
    else none
  | .half _ :: _ => none

/-! ## Numbers -/

/-- One or more digits, and the text behind them. -/
def someDigits? (s : Text) : Option (Text × Text) :=
  let ds := s.takeWhile Char.isDigit
  if ds = [] then none else some (ds, s.dropWhile Char.isDigit)

/-- The whole part of a number: a zero, or digits that do not start with one. -/
def wholePart? : Text → Option (Text × Text)
  | '0' :: s => some (['0'], s)
  | s => someDigits? s

/-- The fraction of a number, if a point follows. -/
def fractionPart? : Text → Option (Text × Text)
  | '.' :: s => (someDigits? s).map fun r => ('.' :: r.1, r.2)
  | s => some ([], s)

/-- The exponent of a number, if its letter follows. -/
def exponentPart? : Text → Option (Text × Text)
  | c :: s =>
    if c = 'e' ∨ c = 'E' then
      match s with
      | d :: s' =>
        if d = '+' ∨ d = '-' then (someDigits? s').map fun r => (c :: d :: r.1, r.2)
        else (someDigits? s).map fun r => (c :: r.1, r.2)
      | [] => none
    else some ([], c :: s)
  | [] => some ([], [])

/-- A number without its sign, and the text behind it. -/
def unsigned? (s : Text) : Option (Text × Text) := do
  let (whole, s) ← wholePart? s
  let (fraction, s) ← fractionPart? s
  let (exponent, s) ← exponentPart? s
  some (whole ++ fraction ++ exponent, s)

/-- A number, and the text behind it. -/
def number? : Text → Option (Text × Text)
  | '-' :: s => (unsigned? s).map fun r => ('-' :: r.1, r.2)
  | s => unsigned? s

/-! ## The tokens of a text -/

/-- Whether the character may stand between tokens. -/
def isBlank (c : Char) : Bool := c = ' ' || c = '\n' || c = '\t' || c = '\r'

/-- The token at the start of a text, and the text behind it. -/
def token? : Text → Option (Token × Text)
  | '[' :: s => some (.openArr, s)
  | ']' :: s => some (.closeArr, s)
  | '\x7b' :: s => some (.openObj, s)
  | '\x7d' :: s => some (.closeObj, s)
  | ':' :: s => some (.colon, s)
  | ',' :: s => some (.comma, s)
  | 'n' :: 'u' :: 'l' :: 'l' :: s => some (.word none, s)
  | 't' :: 'r' :: 'u' :: 'e' :: s => some (.word (some true), s)
  | 'f' :: 'a' :: 'l' :: 's' :: 'e' :: s => some (.word (some false), s)
  | '"' :: s => (stringPieces? s).map fun r => (.str (textOfPieces? r.1), r.2)
  | s => (number? s).map fun r => (.num r.1, r.2)

/-! ## Each token takes a character -/

theorem stringPieces?_length {s r : Text} {ps : List Piece} (h : stringPieces? s = some (ps, r)) :
    r.length < s.length := by
  have hmap : ∀ {s : Text} {p : Piece},
      (∀ {ps r}, stringPieces? s = some (ps, r) → r.length < s.length) →
      ∀ {ps r}, (stringPieces? s).map (fun q => (p :: q.1, q.2)) = some (ps, r) →
        r.length < s.length := by
    intro s p ih ps r h
    obtain ⟨q, hq, heq⟩ := Option.map_eq_some_iff.1 h
    rw [← (Prod.mk.inj heq).2]
    exact ih hq
  fun_induction stringPieces? s generalizing ps r with
  | case1 => simp at h
  | case2 s => simp_all
  | case3 a b c d s p hp ih =>
    have := hmap ih h
    simp only [List.length_cons]
    omega
  | case4 => simp at h
  | case5 => simp at h
  | case6 e s _ c hc ih =>
    have := hmap ih h
    simp only [List.length_cons]
    omega
  | case7 => simp at h
  | case8 => simp at h
  | case9 =>
    rename_i ih
    have := hmap ih h
    simp only [List.length_cons]
    omega

theorem someDigits?_length {s r ds : Text} (h : someDigits? s = some (ds, r)) :
    r.length < s.length := by
  simp only [someDigits?] at h
  split at h
  · simp at h
  · next hne =>
    obtain ⟨rfl, rfl⟩ := Prod.mk.inj (Option.some.inj h)
    have := congrArg List.length (List.takeWhile_append_dropWhile (p := Char.isDigit) (l := s))
    have hpos := List.length_pos_iff.2 hne
    simp only [List.length_append] at this
    omega

theorem wholePart?_length {s r ds : Text} (h : wholePart? s = some (ds, r)) :
    r.length < s.length := by
  rw [wholePart?.eq_def] at h
  split at h
  · simp_all
  · exact someDigits?_length h

theorem fractionPart?_length {s r ds : Text} (h : fractionPart? s = some (ds, r)) :
    r.length ≤ s.length := by
  rw [fractionPart?.eq_def] at h
  split at h
  · obtain ⟨q, hq, heq⟩ := Option.map_eq_some_iff.1 h
    have := someDigits?_length hq
    simp_all
    omega
  · simp_all

theorem exponentPart?_length {s r ds : Text} (h : exponentPart? s = some (ds, r)) :
    r.length ≤ s.length := by
  rw [exponentPart?.eq_def] at h
  split at h
  · split at h
    · split at h
      · split at h
        · obtain ⟨q, hq, heq⟩ := Option.map_eq_some_iff.1 h
          have := someDigits?_length hq
          simp_all
          omega
        · obtain ⟨q, hq, heq⟩ := Option.map_eq_some_iff.1 h
          have := someDigits?_length hq
          simp_all
          omega
      · simp at h
    · simp_all
  · simp_all

theorem unsigned?_length {s r ds : Text} (h : unsigned? s = some (ds, r)) :
    r.length < s.length := by
  simp only [unsigned?, Option.bind_eq_bind, Option.bind_eq_some_iff, Prod.exists] at h
  obtain ⟨a, s1, h1, b, s2, h2, c, s3, h3, h4⟩ := h
  have := wholePart?_length h1
  have := fractionPart?_length h2
  have := exponentPart?_length h3
  simp_all
  omega

theorem number?_length {s r ds : Text} (h : number? s = some (ds, r)) : r.length < s.length := by
  rw [number?.eq_def] at h
  split at h
  · obtain ⟨q, hq, heq⟩ := Option.map_eq_some_iff.1 h
    have := unsigned?_length hq
    simp_all
    omega
  · exact unsigned?_length h

/-- Every token takes at least a character, so cutting a text into tokens comes to an end. -/
theorem token?_length {s r : Text} {t : Token} (h : token? s = some (t, r)) :
    r.length < s.length := by
  rw [token?.eq_def] at h
  split at h
  case h_10 s =>
    obtain ⟨q, hq, heq⟩ := Option.map_eq_some_iff.1 h
    have := stringPieces?_length hq
    simp_all
    omega
  case h_11 =>
    obtain ⟨q, hq, heq⟩ := Option.map_eq_some_iff.1 h
    have := number?_length hq
    simp_all
  all_goals
    obtain ⟨rfl, rfl⟩ := Prod.mk.inj (Option.some.inj h)
    simp only [List.length_cons]
    omega

/-- The tokens of a text. -/
def tokens? (s : Text) : Option (List Token) :=
  match _hs : s.dropWhile isBlank with
  | [] => some []
  | c :: s' =>
    match _ht : token? (c :: s') with
    | none => none
    | some (t, rest) => (tokens? rest).map (t :: ·)
termination_by s.length
decreasing_by
  have hlt := token?_length _ht
  have hle : (s.dropWhile isBlank).length ≤ s.length := (List.dropWhile_suffix isBlank).length_le
  rw [_hs] at hle
  omega

end CoinAddress.Json
