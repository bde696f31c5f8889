/-!
# Text and bytes

A text is a list of characters and a byte string is a list of bytes. Everything in this library
is stated over these two; `String` occurs only as a way to write a fixed text down, and at the
command line.

## Cutting

`cutAtFirst` and `cutAtLast` split a text at one separator. Both come with the lemma that says
what the two sides are.
-/

namespace CoinAddress

/-- A text is the list of its characters. -/
abbrev Text := List Char

/-- A byte string. -/
abbrev Bytes := List UInt8

namespace Text

/-- The bytes of a text in UTF-8. -/
def utf8 (s : Text) : Bytes := s.flatMap String.utf8EncodeChar

/-- How many bytes a text takes in UTF-8. -/
def byteSize (s : Text) : Nat := s.foldr (fun c n => c.utf8Size + n) 0

@[simp] theorem byteSize_cons (c : Char) (s : Text) :
    byteSize (c :: s) = c.utf8Size + byteSize s := rfl

/-- The two sizes agree: `byteSize` counts the bytes of `utf8`. -/
theorem length_utf8 (s : Text) : (utf8 s).length = byteSize s := by
  induction s with
  | nil => rfl
  | cons c s ih => simp_all [utf8]

/-- Whether the character is one of the 128 of ASCII. -/
def isAscii (c : Char) : Bool := decide (c.toNat < 128)

/-- The first byte of the character in UTF-8, shown as the character with that number. -/
def leadByte (c : Char) : Char := Char.ofNat ((String.utf8EncodeChar c).headD 0).toNat

/-- A number in decimal. -/
def ofNat (n : Nat) : Text := Nat.toDigits 10 n

/-- An integer in decimal, with a minus sign when it is negative. -/
def ofInt : Int → Text
  | .ofNat n => ofNat n
  | .negSucc n => '-' :: ofNat (n + 1)

/-- The text followed by blanks up to a width; a longer text is not cut. -/
def padRight (width : Nat) (s : Text) : Text := s ++ List.replicate (width - s.length) ' '

/-- Blanks up to a width and then the text; a longer text is not cut. -/
def padLeft (width : Nat) (s : Text) : Text := List.replicate (width - s.length) ' ' ++ s

/-- The texts one after the other with a separator between neighbours. -/
def joinWith (separator : Text) (parts : List Text) : Text := List.intercalate separator parts

/-- The text before the first separator and the text after it. -/
def cutAtFirst (separator : Char) : Text → Option (Text × Text)
  | [] => none
  | c :: s =>
    if c = separator then some ([], s)
    else (cutAtFirst separator s).map fun sides => (c :: sides.1, sides.2)

/-- The text before the last separator and the text after it. -/
def cutAtLast (separator : Char) : Text → Option (Text × Text)
  | [] => none
  | c :: s =>
    match cutAtLast separator s with
    | some sides => some (c :: sides.1, sides.2)
    | none => if c = separator then some ([], s) else none

theorem cutAtFirst_eq_none_iff {d : Char} {s : Text} : cutAtFirst d s = none ↔ d ∉ s := by
  induction s with
  | nil => simp [cutAtFirst]
  | cons c s ih =>
    by_cases h : c = d
    · simp [cutAtFirst, h]
    · simp [cutAtFirst, h, ih, Ne.symm h]

/-- The first cut leaves no separator on its left side. -/
theorem cutAtFirst_eq_some_iff {d : Char} {s a b : Text} :
    cutAtFirst d s = some (a, b) ↔ s = a ++ d :: b ∧ d ∉ a := by
  induction s generalizing a with
  | nil => simp [cutAtFirst]
  | cons c s ih =>
    by_cases h : c = d
    · subst h
      cases a with
      | nil => simp [cutAtFirst]
      | cons x a => simp +contextual [cutAtFirst]
    · cases a with
      | nil => simp [cutAtFirst, h, Prod.ext_iff]
      | cons x a =>
        simp only [cutAtFirst, h, if_false, Option.map_eq_some_iff, Prod.exists, Prod.mk.injEq,
          List.cons.injEq, List.cons_append, List.mem_cons, not_or]
        constructor
        · rintro ⟨a', b', hs, ⟨rfl, rfl⟩, rfl⟩
          exact ⟨⟨rfl, (ih.1 hs).1⟩, Ne.symm h, (ih.1 hs).2⟩
        · rintro ⟨⟨rfl, hs⟩, _, hd⟩
          exact ⟨a, b, ih.2 ⟨hs, hd⟩, ⟨rfl, rfl⟩, rfl⟩

theorem cutAtLast_eq_none_iff {d : Char} {s : Text} : cutAtLast d s = none ↔ d ∉ s := by
  induction s with
  | nil => simp [cutAtLast]
  | cons c s ih =>
    rw [cutAtLast]
    split
    · next h => simp_all
    · next h =>
      have := ih.1 h
      by_cases hc : c = d
      · simp [hc]
      · simp [hc, Ne.symm hc, this]

/-- The last cut leaves no separator on its right side. -/
theorem cutAtLast_eq_some_iff {d : Char} {s a b : Text} :
    cutAtLast d s = some (a, b) ↔ s = a ++ d :: b ∧ d ∉ b := by
  induction s generalizing a b with
  | nil => simp [cutAtLast]
  | cons c s ih =>
    rw [cutAtLast]
    split
    · next sides h =>
      have hcut := ih.1 h
      cases a with
      | nil =>
        simp only [Option.some.injEq, Prod.mk.injEq, reduceCtorEq, false_and, List.nil_append,
          List.cons.injEq, false_iff, not_and, Decidable.not_not]
        rintro ⟨rfl, rfl⟩
        simp [hcut.1]
      | cons x a =>
        have := @ih a b
        rw [h, Option.some.injEq, Prod.ext_iff] at this
        simp only [Option.some.injEq, Prod.mk.injEq, List.cons.injEq, List.cons_append, and_assoc,
          this]
    · next h =>
      have hd := cutAtLast_eq_none_iff.1 h
      cases a with
      | nil =>
        by_cases hc : c = d
        · subst hc
          simp only [if_true, Option.some.injEq, Prod.mk.injEq, true_and, List.nil_append,
            List.cons.injEq]
          constructor
          · rintro rfl
            exact ⟨rfl, hd⟩
          · exact fun hs => hs.1
        · simp [hc]
      | cons x a =>
        have : ¬ (s = a ++ d :: b) := by
          rintro rfl
          simp at hd
        by_cases hc : c = d <;> simp [hc, this]

end Text

end CoinAddress
