import Primer.Proofs.Pattern

/-!
# Tokens read back from their spelling

The spelling that messages quote a token with is one that the scanner reads. With blanks between
them, the spellings of tokens split into these tokens again (`Scanner.scanLine_spelling`). Doubles
are left out, as their layout is not that of the source, and so are negative integers, whose sign is
a token of its own.
-/

set_option autoImplicit false

namespace Primer

/-- The spelling of the token is one that the scanner knows: there is no negative integer and no
double, names are words that are not reserved, and texts hold no double quotation mark. -/
def Token.Plain : Token → Prop
  | .integer n => 0 ≤ n.toInt
  | .float _ => False
  | .text s => '"' ∉ s.toList
  | .name s =>
    Scanner.IsWord s.toList ∧ (∀ b, s ≠ booleanText b) ∧ ∀ k : Keyword, s ≠ k.text
  | .boolean _ | .keyword _ | .mark _ => True

namespace Scanner

/-- The lexemes of tokens that are written from the column on, each followed by a blank. -/
def placed (line : Nat) : Nat → List Token → Row
  | _, [] => []
  | column, t :: ts => ⟨t, line, column⟩ :: placed line (column + t.spelling.length + 1) ts

/-- The tokens that were placed are those that there were. -/
theorem map_token_placed (line column : Nat) (ts : List Token) :
    (placed line column ts).map Lexeme.token = ts := by
  induction ts generalizing column with
  | nil => rfl
  | cons t ts ih => rw [placed, List.map_cons, ih]

/-- The digits of an integer that is not negative are read as it. -/
theorem readAs_integer {n : Int64} {rest : List Char} (hn : 0 ≤ n.toInt)
    (hrest : ∀ d ∈ rest.head?, d.isDigit = false ∧ d ≠ '.') :
    ReadAs (Integer.text n).toList (.integer n) rest := by
  have htext : (Integer.text n).toList = Nat.toDigits 10 n.toInt.natAbs := by
    rw [Integer.text, if_neg (by omega), Nat.toList_repr]
  have hvalue : n.toInt = Nat.ofDigitChars 10 (Nat.toDigits 10 n.toInt.natAbs) 0 := by
    rw [Nat.ofDigitChars_ten_toDigits]
    omega
  have hdigits : ∀ c ∈ Nat.toDigits 10 n.toInt.natAbs, c.isDigit = true :=
    fun c hc => Nat.isDigit_of_mem_toDigits (by decide) (by decide) hc
  -- there is a first digit, and the others are read with it
  obtain ⟨c, cs, hcs⟩ := List.exists_cons_of_ne_nil (@Nat.toDigits_ne_nil n.toInt.natAbs 10)
  rw [htext, hcs]
  rw [hcs] at hdigits hvalue
  obtain ⟨hc, hlater⟩ := List.forall_mem_cons.1 hdigits
  refine ⟨c, cs, rfl, ?_⟩
  rw [piece_of_isDigit hc, number_digits hlater hrest, Integer.ofDigits?_eq_some_iff.2 hvalue]

/-- The spelling of a token is read as this token at the end of a line and in front of a blank. -/
theorem readAs_spelling {t : Token} {rest : List Char} (ht : t.Plain)
    (hrest : ∀ d ∈ rest.head?, d = ' ') : ReadAs t.spelling.toList t rest := by
  have hword : ∀ d ∈ rest.head?, continuesName d = false := by
    intro d hd
    rw [hrest d hd]
    decide
  cases t with
  | integer n =>
    refine readAs_integer ht fun d hd => ?_
    rw [hrest d hd]
    decide
  | float x => exact ht.elim
  | boolean b =>
    have hread := readAs_of_isWord (isWord_booleanText b) hword
    rwa [classify_booleanText] at hread
  | text s =>
    have hspelling : (Token.text s).spelling.toList = '"' :: (s.toList ++ ['"']) := by
      simp [Token.spelling]
    rw [hspelling]
    exact readAs_text (by decide) ht
  | name s =>
    have hread := readAs_of_isWord ht.1 hword
    rwa [classify_of_ne ht.2.1 ht.2.2] at hread
  | keyword k =>
    have hread := readAs_of_isWord (isWord_keyword k) hword
    rwa [classify_keyword] at hread
  | mark m =>
    -- a mark goes on neither at the end of the line nor in front of a blank
    cases rest with
    | nil => cases m <;> exact ⟨_, _, rfl, rfl⟩
    | cons d rest =>
      obtain rfl := hrest d rfl
      cases m <;> exact ⟨_, _, rfl, rfl⟩

/-- A token that is spelled out is scanned as itself, up to a blank or the end. -/
theorem scanFrom_spelling (line column : Nat) {t : Token} {rest : List Char} (ht : t.Plain)
    (hrest : ∀ d ∈ rest.head?, d = ' ') :
    scanFrom line column 0 (t.spelling.toList ++ rest) =
      (scanFrom line (column + t.spelling.length) 0 rest).map (⟨t, line, column⟩ :: ·) := by
  rw [← String.length_toList]
  exact scanFrom_readAs line column (readAs_spelling ht hrest)

/-- Tokens with a blank between each two are scanned as they were placed. -/
theorem scanFrom_spellings (line column : Nat) {ts : List Token} (h : ∀ t ∈ ts, t.Plain) :
    scanFrom line column 0 (" ".intercalate (ts.map Token.spelling)).toList =
      .ok (placed line column ts) := by
  induction ts generalizing column with
  | nil =>
    rw [List.map_nil, String.intercalate_nil]
    rfl
  | cons t ts ih =>
    obtain ⟨ht, hts⟩ := List.forall_mem_cons.1 h
    cases ts with
    | nil =>
      have hscan := @scanFrom_spelling line column t [] ht (by simp)
      rw [List.append_nil] at hscan
      rw [List.map_cons, List.map_nil, String.intercalate_singleton, hscan]
      rfl
    | cons u us =>
      -- the first spelling, then the blank after it, then the rest by induction
      have hblank : (" " : String).toList = [' '] := rfl
      rw [List.map_cons, List.map_cons, String.intercalate_cons_cons, ← List.map_cons,
        String.toList_append, String.toList_append, hblank, List.append_assoc,
        List.singleton_append, scanFrom_spelling line column ht (by simp), scanFrom,
        piece_of_isGap (by decide)]
      dsimp only
      rw [ih _ hts]
      rfl

/-- **Tokens are read back from their spelling.** Tokens with plain spellings, written with single
blanks between them, split into exactly these tokens, each in the column that it was written at. -/
theorem scanLine_spelling (line : Nat) (ts : List Token) (h : ∀ t ∈ ts, t.Plain) :
    scanLine line (" ".intercalate (ts.map Token.spelling)) = .ok (placed line 0 ts) ∧
      (placed line 0 ts).map Lexeme.token = ts :=
  ⟨scanFrom_spellings line 0 h, map_token_placed line 0 ts⟩

/-- A name that goes on from a reserved word, a text that looks like a comment, and the greatest
integer. -/
theorem scanLine_spelling_words :
    let ts : List Token := [.keyword .kwElseif, .name "elseifx", .mark .less, .mark .assign,
      .text "é // 'if'", .integer 9223372036854775807]
    (∀ t ∈ ts, t.Plain) ∧
      scanLine 2 "elseif elseifx < = \"é // 'if'\" 9223372036854775807" = .ok (placed 2 0 ts) ∧
      placed 2 0 ts = [⟨.keyword .kwElseif, ⟨2, 0⟩⟩, ⟨.name "elseifx", ⟨2, 7⟩⟩,
        ⟨.mark .less, ⟨2, 15⟩⟩, ⟨.mark .assign, ⟨2, 17⟩⟩, ⟨.text "é // 'if'", ⟨2, 19⟩⟩,
        ⟨.integer 9223372036854775807, ⟨2, 31⟩⟩] := by
  intro ts
  have hname : (Token.name "elseifx").Plain :=
    ⟨⟨'e', _, rfl, by decide, List.all_eq_true.1 rfl⟩, by decide, fun k => by cases k <;> decide⟩
  have htext : (Token.text "é // 'if'").Plain := by simp [Token.Plain]
  have hinteger : (Token.integer 9223372036854775807).Plain := by simp [Token.Plain]
  have hplain : ∀ t ∈ ts, t.Plain := by
    intro t ht
    simp only [ts, List.mem_cons, List.not_mem_nil, or_false] at ht
    rcases ht with rfl | rfl | rfl | rfl | rfl | rfl
    · trivial
    · exact hname
    · trivial
    · trivial
    · exact htext
    · exact hinteger
  exact ⟨hplain, (scanLine_spelling 2 ts hplain).1, rfl⟩

end Scanner

end Primer
