import CoinAddress.Proofs.JsonNumber
import CoinAddress.Proofs.JsonString

/-!
# How tokens are written in JSON

The punctuation marks and the three words have one text each; a string and a number have the texts
that are theirs. A list of tokens is written with any blanks around each of them: `TokensWritten`.

A text that is cut into tokens is written in them: `written_of_tokens?`. The other way round, a
token is cut off as a whole, unless it is a number that what follows goes on with: `tokens?_cons`.
Which tokens follow a number is no matter of theirs, so that is settled where values are read.
-/

namespace CoinAddress.Json

/-- The texts of a token. -/
inductive Token.Written : Token → Text → Prop
  | openArr : Written .openArr ['[']
  | closeArr : Written .closeArr [']']
  | openObj : Written .openObj ['\x7b']
  | closeObj : Written .closeObj ['\x7d']
  | colon : Written .colon [':']
  | comma : Written .comma [',']
  | wordNull : Written (.word none) ['n', 'u', 'l', 'l']
  | wordTrue : Written (.word (some true)) ['t', 'r', 'u', 'e']
  | wordFalse : Written (.word (some false)) ['f', 'a', 'l', 's', 'e']
  | num {s : Text} (h : IsNumber s) : Written (.num s) s
  | str {s t : Text} (h : StringWritten s t) : Written (.str (some s)) t

/-- The texts of some tokens: each of them in one of its texts, in order, with any blanks in front,
between and behind. -/
inductive TokensWritten : List Token → Text → Prop
  | nil {blank : Text} (hblank : ∀ c ∈ blank, isBlank c = true) : TokensWritten [] blank
  | cons {blank u s : Text} {t : Token} {ts : List Token} (hblank : ∀ c ∈ blank, isBlank c = true)
      (ht : t.Written u) (hs : TokensWritten ts s) : TokensWritten (t :: ts) (blank ++ (u ++ s))

/-! ## One token -/

theorem token?_num {s rest : Text} (h : IsNumber s)
    (hrest : ∀ c ∈ rest.head?, continuesNumber c = false) :
    token? (s ++ rest) = some (.num s, rest) := by
  have hread := number?_append h hrest
  obtain ⟨c, t, rfl, hc⟩ := h.exists_cons
  rw [List.cons_append] at hread ⊢
  unfold token?
  split
  case h_11 => rw [hread]; rfl
  all_goals
    next heq =>
    obtain ⟨rfl, -⟩ := List.cons.inj heq
    simp at hc

/-- A token in front of a text is read as a whole, unless it is a number that goes on. -/
theorem token?_append {t : Token} {u rest : Text} (h : t.Written u)
    (hrest : ∀ s, t = .num s → ∀ c ∈ rest.head?, continuesNumber c = false) :
    token? (u ++ rest) = some (t, rest) := by
  cases h with
  | openArr => rfl
  | closeArr => rfl
  | openObj => rfl
  | closeObj => rfl
  | colon => rfl
  | comma => rfl
  | wordNull => rfl
  | wordTrue => rfl
  | wordFalse => rfl
  | num h => exact token?_num h (hrest _ rfl)
  | str h =>
    obtain ⟨parts, hparts, rfl⟩ := h
    obtain ⟨ps, hread, htext⟩ := stringPieces?_of_written hparts rest
    rw [List.cons_append, List.append_assoc, List.singleton_append, token?, hread]
    simp only [Option.map_some, htext]

theorem written_of_token? {s rest : Text} {t : Token} (h : token? s = some (t, rest))
    (hne : t ≠ .str none) : ∃ u, s = u ++ rest ∧ t.Written u := by
  unfold token? at h
  split at h
  case h_1 => cases h; exact ⟨_, rfl, .openArr⟩
  case h_2 => cases h; exact ⟨_, rfl, .closeArr⟩
  case h_3 => cases h; exact ⟨_, rfl, .openObj⟩
  case h_4 => cases h; exact ⟨_, rfl, .closeObj⟩
  case h_5 => cases h; exact ⟨_, rfl, .colon⟩
  case h_6 => cases h; exact ⟨_, rfl, .comma⟩
  case h_7 => cases h; exact ⟨_, rfl, .wordNull⟩
  case h_8 => cases h; exact ⟨_, rfl, .wordTrue⟩
  case h_9 => cases h; exact ⟨_, rfl, .wordFalse⟩
  case h_10 s =>
    obtain ⟨⟨ps, r⟩, hps, heq⟩ := Option.map_eq_some_iff.1 h
    cases heq
    obtain ⟨parts, hparts, rfl⟩ := exists_parts_of_stringPieces? hps
    obtain ⟨text, htext⟩ := Option.ne_none_iff_exists'.1 fun hnone => hne (congrArg Token.str hnone)
    obtain ⟨parts', hparts', hflat⟩ := exists_parts_of_textOfPieces? htext hparts
    refine ⟨'"' :: (parts'.flatten ++ ['"']), by simp [hflat], ?_⟩
    rw [htext]
    exact .str ⟨parts', hparts', rfl⟩
  case h_11 =>
    obtain ⟨⟨ds, r⟩, hds, heq⟩ := Option.map_eq_some_iff.1 h
    cases heq
    obtain ⟨rfl, hnumber⟩ := isNumber_of_number? hds
    exact ⟨ds, rfl, .num hnumber⟩

/-! ## All tokens -/

theorem isBlank_iff {c : Char} : isBlank c = true ↔ c = ' ' ∨ c = '\n' ∨ c = '\t' ∨ c = '\r' := by
  simp [isBlank, or_assoc]

theorem tokens?_eq (s : Text) : tokens? s = match s.dropWhile isBlank with
    | [] => some []
    | c :: u => (token? (c :: u)).bind fun r => (tokens? r.2).map (r.1 :: ·) := by
  rw [tokens?]
  split
  · next hs => simp only [hs]
  · next c u hs =>
    simp only [hs]
    split
    · next ht => rw [ht]; rfl
    · next ht => rw [ht]; rfl

theorem tokens?_of_blank {s : Text} (h : ∀ c ∈ s, isBlank c = true) : tokens? s = some [] := by
  rw [tokens?_eq, List.dropWhile_eq_nil_iff.2 h]

/-- No token starts with a blank. -/
theorem Token.Written.exists_cons {t : Token} {u : Text} (h : t.Written u) :
    ∃ c s, u = c :: s ∧ isBlank c = false := by
  cases h with
  | num h =>
    obtain ⟨c, s, rfl, rfl | hc⟩ := h.exists_cons
    · exact ⟨_, _, rfl, rfl⟩
    · refine ⟨c, s, rfl, Bool.eq_false_iff.2 fun hblank => ?_⟩
      rcases isBlank_iff.1 hblank with rfl | rfl | rfl | rfl <;> cases hc
  | str h =>
    obtain ⟨parts, -, rfl⟩ := h
    exact ⟨_, _, rfl, rfl⟩
  | _ => exact ⟨_, _, rfl, rfl⟩

/-- The first token is read behind the blanks in front of it, and then the others. -/
theorem tokens?_cons {blank u rest : Text} {t : Token} (hblank : ∀ c ∈ blank, isBlank c = true)
    (ht : t.Written u) (hrest : ∀ s, t = .num s → ∀ c ∈ rest.head?, continuesNumber c = false) :
    tokens? (blank ++ (u ++ rest)) = (tokens? rest).map (t :: ·) := by
  have hread := token?_append ht hrest
  obtain ⟨c, s, rfl, hc⟩ := ht.exists_cons
  rw [tokens?_eq, List.dropWhile_append_of_pos hblank, List.cons_append,
    List.dropWhile_cons_of_neg (by simp [hc])]
  rw [List.cons_append] at hread
  simp only [hread, Option.bind_some]

/-- What is cut into tokens is written in them, if each string has a text. -/
theorem written_of_tokens? {s : Text} {ts : List Token} (h : tokens? s = some ts)
    (hne : .str none ∉ ts) : TokensWritten ts s := by
  induction hn : s.length using Nat.strong_induction_on generalizing s ts with
  | _ n ih =>
    have hblank : ∀ c ∈ s.takeWhile isBlank, isBlank c = true :=
      fun c hc => List.mem_takeWhile_imp hc
    have hsplit : s = s.takeWhile isBlank ++ s.dropWhile isBlank :=
      List.takeWhile_append_dropWhile.symm
    rw [tokens?_eq] at h
    cases hdrop : s.dropWhile isBlank with
    | nil =>
      rw [hdrop] at h
      cases h
      rw [hsplit, hdrop, List.append_nil]
      exact .nil hblank
    | cons c u =>
      rw [hdrop] at h
      obtain ⟨⟨t, rest⟩, ht, hmap⟩ := Option.bind_eq_some_iff.1 h
      obtain ⟨ts, hts, rfl⟩ := Option.map_eq_some_iff.1 hmap
      rw [List.mem_cons, not_or] at hne
      obtain ⟨w, hw, hwritten⟩ := written_of_token? ht (Ne.symm hne.1)
      have hlt : rest.length < s.length := by
        have hle := (List.dropWhile_suffix (l := s) isBlank).length_le
        rw [hdrop] at hle
        exact Nat.lt_of_lt_of_le (token?_length ht) hle
      rw [hsplit, hdrop, hw]
      exact .cons hblank hwritten (ih rest.length (hn ▸ hlt) hts hne.2 rfl)

end CoinAddress.Json
