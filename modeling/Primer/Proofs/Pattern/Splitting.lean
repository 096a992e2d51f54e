import Primer.Proofs.Pattern

/-!
# How a line splits

A line that splits is nothing but its tokens and the gaps between them: each token is spelled by
the longest text that any pattern matches there, its column counts the characters before it, and
only the last gap can hold a comment (`Scanner.Splits`). This determines the lexemes of a line. A
line that does not split has a first part that does, and after it a text that no token can be
(`Scanner.Rejected`). Both are one theorem, `Scanner.scanLine_splits`.
-/

set_option autoImplicit false

namespace Primer.Scanner

/-- From the column on, the text up to its last part `rest` is made of the lexemes and of gaps. A
gap is blanks, and the last one may end in a comment, which runs up to the next line feed. -/
inductive Splits (line : Nat) : Nat → List Char → Row → List Char → Prop
  | done {column : Nat} {gap rest : List Char} (hgap : ∀ c ∈ gap, isGap c = true) :
      Splits line column (gap ++ rest) [] rest
  | comment {column : Nat} {gap body rest : List Char} (hgap : ∀ c ∈ gap, isGap c = true)
      (hbody : '\n' ∉ body) (hrest : ∀ d ∈ rest.head?, d = '\n') :
      Splits line column (gap ++ '/' :: '/' :: (body ++ rest)) [] rest
  | token {column : Nat} {gap w later rest : List Char} {t : Token} {row : Row}
      (hgap : ∀ c ∈ gap, isGap c = true) (ht : Spells t w) (hlongest : Longest w (w ++ later))
      (hlater : Splits line (column + gap.length + w.length) later row rest) :
      Splits line column (gap ++ (w ++ later)) (⟨t, line, column + gap.length⟩ :: row) rest

/-- The text is no token in front of `after`, for the cause, which is reported the given number of
characters after its start. -/
inductive Rejected : Cause → List Char → List Char → Nat → Prop
  | unexpectedCharacter {c : Char} {after : List Char}
      (hnone : ∀ (p : Pattern) (w : List Char), ¬p.Matches (c :: w)) :
      Rejected (.unexpectedCharacter c) [c] after 0
  | loneBang {after : List Char} (h : after.head? ≠ some '=') : Rejected .loneBang ['!'] after 0
  | secondPoint {whole fraction after : List Char} (hsome : whole ≠ [])
      (hwhole : ∀ c ∈ whole, c.isDigit = true) (hfraction : ∀ c ∈ fraction, c.isDigit = true) :
      Rejected .secondPoint (whole ++ '.' :: (fraction ++ ['.'])) after
        (whole.length + 1 + fraction.length)
  | integerTooLarge {digits after : List Char} (hsome : digits ≠ [])
      (hdigits : ∀ c ∈ digits, c.isDigit = true)
      (hafter : ∀ c ∈ after.head?, c.isDigit = false ∧ c ≠ '.')
      (hlarge : Integer.limit ≤ Nat.ofDigitChars 10 digits 0) :
      Rejected (.integerTooLarge (String.ofList digits)) digits after 0
  | unclosedText {quote : Char} {body : List Char} (hquote : isQuote quote = true)
      (hopen : quote ∉ body) : Rejected .unclosedText (quote :: body) [] 0

/-! ## What cannot be split off -/

/-- A pattern matches only what starts with a character of one of the classes. -/
theorem Pattern.Matches.class_of_head {p : Pattern} {c : Char} {w : List Char}
    (h : p.Matches (c :: w)) :
    isGap c = true ∨ c.isDigit = true ∨ isQuote c = true ∨ startsName c = true ∨
      c ∈ markStarts := by
  generalize hv : c :: w = v at h
  cases h with
  | digits hsome hw =>
    subst hv
    exact Or.inr (Or.inl (hw c List.mem_cons_self))
  | point hsome hwhole =>
    obtain ⟨d, ds, rfl⟩ := List.exists_cons_of_ne_nil hsome
    obtain ⟨rfl, -⟩ := List.cons.inj hv
    exact Or.inr (Or.inl (hwhole c List.mem_cons_self))
  | secondPoint hsome hwhole =>
    obtain ⟨d, ds, rfl⟩ := List.exists_cons_of_ne_nil hsome
    obtain ⟨rfl, -⟩ := List.cons.inj hv
    exact Or.inr (Or.inl (hwhole c List.mem_cons_self))
  | quoted hquote =>
    obtain ⟨rfl, -⟩ := List.cons.inj hv
    exact Or.inr (Or.inr (Or.inl hquote))
  | unclosed hquote =>
    obtain ⟨rfl, -⟩ := List.cons.inj hv
    exact Or.inr (Or.inr (Or.inl hquote))
  | boolean b =>
    obtain ⟨d, ds, hword, hd, -⟩ := isWord_booleanText b
    obtain ⟨rfl, -⟩ := List.cons.inj (hv.trans hword)
    exact Or.inr (Or.inr (Or.inr (Or.inl hd)))
  | keyword k =>
    obtain ⟨d, ds, hword, hd, -⟩ := isWord_keyword k
    obtain ⟨rfl, -⟩ := List.cons.inj (hv.trans hword)
    exact Or.inr (Or.inr (Or.inr (Or.inl hd)))
  | name hc =>
    obtain ⟨rfl, -⟩ := List.cons.inj hv
    exact Or.inr (Or.inr (Or.inr (Or.inl hc)))
  | mark m =>
    -- every mark begins with one of the characters for marks
    have hmem : ∀ d ∈ m.text.toList.head?, d ∈ markStarts := by
      cases m <;> exact fun d hd => Option.some.inj hd ▸ List.elem_iff.1 rfl
    rw [← hv] at hmem
    exact Or.inr (Or.inr (Or.inr (Or.inr (hmem c rfl))))
  | comment =>
    obtain ⟨rfl, -⟩ := List.cons.inj hv
    exact Or.inr (Or.inr (Or.inr (Or.inr (by decide))))
  | blanks hsome hw =>
    subst hv
    exact Or.inl (hw c List.mem_cons_self)

/-- What offends is a text of its own, with the rest of the line after it. -/
theorem Offends.rejected {cause : Cause} {text : List Char} {offset : Nat}
    (h : Offends cause text offset) :
    ∃ lexeme after, text = lexeme ++ after ∧ Rejected cause lexeme after offset := by
  cases h with
  | @unexpectedCharacter c rest hgap hdigit hquote hname hmark =>
    refine ⟨[c], rest, rfl, .unexpectedCharacter fun p w hmatches => ?_⟩
    -- a character of no class begins nothing
    rcases hmatches.class_of_head with h | h | h | h | h
    · exact absurd h (Bool.eq_false_iff.1 hgap)
    · exact absurd h (Bool.eq_false_iff.1 hdigit)
    · exact absurd h (Bool.eq_false_iff.1 hquote)
    · exact absurd h (Bool.eq_false_iff.1 hname)
    · exact hmark h
  | @loneBang rest h => exact ⟨['!'], rest, rfl, .loneBang h⟩
  | @secondPoint whole fraction rest hsome hwhole hfraction =>
    exact ⟨whole ++ '.' :: (fraction ++ ['.']), rest, by simp, .secondPoint hsome hwhole hfraction⟩
  | @integerTooLarge digits rest hsome hdigits hrest hlarge =>
    exact ⟨digits, rest, rfl, .integerTooLarge hsome hdigits hrest hlarge⟩
  | @unclosedText quote rest hquote hopen =>
    exact ⟨quote :: rest, [], (List.append_nil _).symm, .unclosedText hquote hopen⟩

/-! ## Splitting -/

namespace Splits

variable {line column : Nat} {text rest : List Char} {row : Row}

/-- A blank belongs to the gap after it. -/
theorem blank {c : Char} (hc : isGap c = true) (h : Splits line (column + 1) text row rest) :
    Splits line column (c :: text) row rest := by
  cases h with
  | done hgap => exact done (List.forall_mem_cons.2 ⟨hc, hgap⟩)
  | comment hgap hbody hrest => exact comment (List.forall_mem_cons.2 ⟨hc, hgap⟩) hbody hrest
  | @token _ gap w later _ t row hgap ht hlongest hlater =>
    have hcolumn : column + 1 + gap.length = column + (c :: gap).length := by
      rw [List.length_cons, Nat.add_assoc, Nat.add_comm 1]
    rw [hcolumn] at hlater ⊢
    exact token (List.forall_mem_cons.2 ⟨hc, hgap⟩) ht hlongest hlater

/-- What was split does not depend on what is left: it is a text that splits to its end. -/
theorem exists_before (h : Splits line column text row rest) :
    ∃ before, text = before ++ rest ∧ Splits line column before row [] := by
  induction h with
  | @done _ gap _ hgap =>
    refine ⟨gap, rfl, ?_⟩
    rw [← List.append_nil gap]
    exact done hgap
  | @comment _ gap body _ hgap hbody hrest =>
    refine ⟨gap ++ '/' :: '/' :: (body ++ []), by simp, ?_⟩
    exact comment hgap hbody (by simp)
  | @token _ gap w later _ t row hgap ht hlongest hlater ih =>
    obtain ⟨before, rfl, hbefore⟩ := ih
    refine ⟨gap ++ (w ++ before), by simp only [List.append_assoc], ?_⟩
    -- with less text after it, no longer text can match
    exact token hgap ht hlongest.of_append hbefore

/-- No lexeme stands before the column that the text starts at. -/
theorem le_column (h : Splits line column text row rest) :
    ∀ x ∈ row, column ≤ x.position.column := by
  induction h with
  | done | comment => simp
  | token hgap ht hlongest hlater ih =>
    refine List.forall_mem_cons.2 ⟨Nat.le_add_right _ _, fun x hx => ?_⟩
    have hle := ih x hx
    omega

/-- The columns of the lexemes grow. -/
theorem pairwise_column (h : Splits line column text row rest) :
    row.Pairwise fun x y => x.position.column < y.position.column := by
  induction h with
  | done | comment => exact .nil
  | token hgap ht hlongest hlater ih =>
    refine .cons (fun x hx => ?_) ih
    -- the spelling of a token is not empty
    obtain ⟨c, cs, rfl, -⟩ := readAs_of_spells ht hlongest
    have hle := hlater.le_column x hx
    rw [List.length_cons] at hle
    dsimp only
    omega

end Splits

/-! ## The walk over a line -/

/-- Gaps move the column and give no token. -/
theorem scanFrom_blanks (line column : Nat) {gap rest : List Char}
    (hgap : ∀ c ∈ gap, isGap c = true) :
    scanFrom line column 0 (gap ++ rest) = scanFrom line (column + gap.length) 0 rest := by
  induction gap generalizing column with
  | nil => rfl
  | cons c gap ih =>
    obtain ⟨hc, hgap⟩ := List.forall_mem_cons.1 hgap
    rw [List.cons_append, scanFrom, piece_of_isGap hc]
    dsimp only
    rw [ih _ hgap, List.length_cons, Nat.add_assoc, Nat.add_comm 1]

/-- A comment moves the column and gives no token. -/
theorem scanFrom_comment (line column : Nat) {body rest : List Char} (hbody : '\n' ∉ body)
    (hrest : ∀ d ∈ rest.head?, d = '\n') :
    scanFrom line column 0 ('/' :: '/' :: (body ++ rest)) =
      scanFrom line (column + (body.length + 2)) 0 rest := by
  have hslash : '\n' ∉ '/' :: body := by simp [hbody]
  have hstop : ∀ d ∈ rest.head?, (d != '\n') = false := by
    intro d hd
    rw [hrest d hd]
    rfl
  have hpiece := @piece_comment (body ++ rest)
  rw [← List.cons_append, takeWhile_append_stop (bne_of_not_mem hslash) hstop] at hpiece
  rw [scanFrom, ← List.cons_append, hpiece]
  dsimp only
  rw [scanFrom_skip, List.length_cons, Nat.add_assoc, Nat.add_comm 1]

/-- A text that splits gives the lexemes that it is made of. -/
theorem scanFrom_of_splits {line column : Nat} {text : List Char} {row : Row}
    (h : Splits line column text row []) : scanFrom line column 0 text = .ok row := by
  generalize hnil : ([] : List Char) = rest at h
  induction h with
  | done hgap =>
    rw [scanFrom_blanks line _ hgap, ← hnil]
    rfl
  | @comment column gap body _ hgap hbody hrest =>
    rw [scanFrom_blanks line _ hgap, scanFrom_comment line _ hbody hrest, ← hnil]
    rfl
  | token hgap ht hlongest hlater ih =>
    rw [scanFrom_blanks line _ hgap, scanFrom_readAs line _ (readAs_of_spells ht hlongest), ih hnil]
    rfl

/-- What a walk from the column on gives accounts for the whole text. -/
def Accounts (line column : Nat) (text : List Char) : Except Fault Row → Prop
  | .ok row => Splits line column text row []
  | .error fault => ∃ row before lexeme after offset, text = before ++ (lexeme ++ after) ∧
      Splits line column text row (lexeme ++ after) ∧ Rejected fault.cause lexeme after offset ∧
      fault.position = ⟨line, column + before.length + offset⟩

namespace Accounts

variable {line column : Nat} {result : Except Fault Row}

/-- A gap may come before a text that is accounted for. -/
theorem blank {c : Char} {cs : List Char} (hc : isGap c = true)
    (h : Accounts line (column + 1) cs result) : Accounts line column (c :: cs) result := by
  cases result with
  | ok row => exact Splits.blank hc h
  | error fault =>
    obtain ⟨row, before, lexeme, after, offset, rfl, hsplits, hrejected, hposition⟩ := h
    refine ⟨row, c :: before, lexeme, after, offset, rfl, hsplits.blank hc, hrejected, ?_⟩
    rw [hposition, List.length_cons, Nat.add_assoc column, Nat.add_comm 1]

/-- A longest spelling of a token may come before a text that is accounted for. -/
theorem token {w later : List Char} {t : Token} (ht : Spells t w)
    (hlongest : Longest w (w ++ later)) (h : Accounts line (column + w.length) later result) :
    Accounts line column (w ++ later) (result.map (⟨t, line, column⟩ :: ·)) := by
  cases result with
  | ok row => exact Splits.token (List.forall_mem_nil _) ht hlongest h
  | error fault =>
    obtain ⟨row, before, lexeme, after, offset, rfl, hsplits, hrejected, hposition⟩ := h
    refine ⟨⟨t, line, column⟩ :: row, w ++ before, lexeme, after, offset,
      (List.append_assoc _ _ _).symm, ?_, hrejected, ?_⟩
    · exact Splits.token (List.forall_mem_nil _) ht hlongest hsplits
    · rw [hposition, List.length_append, Nat.add_assoc column]

end Accounts

/-- Every text is accounted for. -/
theorem scanFrom_accounts (line column : Nat) (text : List Char) :
    Accounts line column text (scanFrom line column 0 text) := by
  -- by induction on the length, since the walk goes on after the piece that starts here
  induction hlength : text.length using Nat.strongRecOn generalizing column text with
  | ind n ih =>
    cases text with
    | nil => exact Splits.done (List.forall_mem_nil _)
    | cons c cs =>
      cases hpiece : piece c cs with
      | bad cause offset =>
        obtain ⟨lexeme, after, htext, hrejected⟩ := (offends_piece hpiece).rejected
        rw [scanFrom, hpiece]
        refine ⟨[], [], lexeme, after, offset, htext, ?_, hrejected, rfl⟩
        rw [htext]
        exact Splits.done (List.forall_mem_nil _)
      | gap more =>
        rcases gap_of_piece hpiece with ⟨hc, rfl⟩ | ⟨body, rest, htext, hbody, hrest, -⟩
        · rw [scanFrom, hpiece]
          rw [List.length_cons] at hlength
          exact (ih cs.length (by omega) (column + 1) cs rfl).blank hc
        · rw [htext, scanFrom_comment line column hbody hrest]
          cases rest with
          | nil => exact Splits.comment (List.forall_mem_nil _) hbody hrest
          | cons d after =>
            -- a line feed after the comment starts nothing
            obtain rfl := hrest d rfl
            refine ⟨[], '/' :: '/' :: body, ['\n'], after, 0, rfl, ?_, ?_, rfl⟩
            · exact Splits.comment (List.forall_mem_nil _) hbody hrest
            · exact .unexpectedCharacter fun p w h => absurd h.class_of_head (by decide)
      | token t more =>
        obtain ⟨w, later, htext, hw, ht, hlongest⟩ := piece_token_iff.1 hpiece
        rw [htext, List.length_append] at hlength
        rw [htext, scanFrom_readAs line column (readAs_of_spells ht hlongest)]
        exact (ih later.length (by omega) _ later rfl).token ht hlongest

/-- A line gives lexemes exactly if it splits into them. -/
theorem scanLine_eq_ok_iff {line : Nat} {s : String} {row : Row} :
    scanLine line s = .ok row ↔ Splits line 0 s.toList row [] := by
  refine ⟨fun h => ?_, scanFrom_of_splits⟩
  have haccounts := scanFrom_accounts line 0 s.toList
  rwa [← scanLine, h] at haccounts

/-- **Splitting loses nothing and takes the longest matches.** A line gives lexemes exactly if it is
made of them and of gaps (`Splits`), each lexeme being spelled by the longest text that any pattern
matches there; so their columns grow. If it gives a fault, a first part of the line gives the
lexemes before a text that is no token, and the fault names this text and a place in it. -/
theorem scanLine_splits (line : Nat) (s : String) :
    (∀ row, scanLine line s = .ok row ↔ Splits line 0 s.toList row []) ∧
      (∀ row, scanLine line s = .ok row →
        row.Pairwise fun x y => x.position.column < y.position.column) ∧
      ∀ fault, scanLine line s = .error fault →
        ∃ row before lexeme after offset, s.toList = before ++ (lexeme ++ after) ∧
          Splits line 0 s.toList row (lexeme ++ after) ∧
          scanLine line (String.ofList before) = .ok row ∧
          Rejected fault.cause lexeme after offset ∧
          fault.position = ⟨line, before.length + offset⟩ := by
  refine ⟨fun row => scanLine_eq_ok_iff, fun row h => ?_, fun fault h => ?_⟩
  · exact (scanLine_eq_ok_iff.1 h).pairwise_column
  · have haccounts := scanFrom_accounts line 0 s.toList
    rw [← scanLine, h] at haccounts
    obtain ⟨row, before, lexeme, after, offset, htext, hsplits, hrejected, hposition⟩ := haccounts
    refine ⟨row, before, lexeme, after, offset, htext, hsplits, ?_, hrejected, ?_⟩
    · -- the text before the one that is no token splits on its own
      obtain ⟨first, hfirst, hbefore⟩ := hsplits.exists_before
      obtain rfl : first = before := List.append_cancel_right (hfirst.symm.trans htext)
      rwa [scanLine_eq_ok_iff, String.toList_ofList]
    · rwa [Nat.zero_add] at hposition

/-- A line with a comment in a text and at its end, and one with an exclamation mark that stands
alone after a token. -/
theorem scanLine_splits_comment :
    let row : Row := [⟨.name "x", ⟨3, 0⟩⟩, ⟨.mark .assign, ⟨3, 2⟩⟩, ⟨.text "é//", ⟨3, 4⟩⟩,
      ⟨.name "elseifx", ⟨3, 10⟩⟩, ⟨.mark .lessEqual, ⟨3, 17⟩⟩, ⟨.integer 12, ⟨3, 19⟩⟩]
    scanLine 3 "x = \"é//\" elseifx<=12 // c" = .ok row ∧
      Splits 3 0 "x = \"é//\" elseifx<=12 // c".toList row [] ∧
      (row.Pairwise fun x y => x.position.column < y.position.column) ∧
      ∃ row before lexeme after offset, "'é'! // c".toList = before ++ (lexeme ++ after) ∧
        Splits 3 0 "'é'! // c".toList row (lexeme ++ after) ∧
        scanLine 3 (String.ofList before) = .ok row ∧ Rejected .loneBang lexeme after offset ∧
        (⟨3, 3⟩ : Position) = ⟨3, before.length + offset⟩ := by
  intro row
  obtain ⟨hiff, hcolumns, -⟩ := scanLine_splits 3 "x = \"é//\" elseifx<=12 // c"
  obtain ⟨-, -, hfault⟩ := scanLine_splits 3 "'é'! // c"
  have hrow : scanLine 3 "x = \"é//\" elseifx<=12 // c" = .ok row := rfl
  exact ⟨hrow, (hiff row).1 hrow, hcolumns row hrow, hfault ⟨.loneBang, 3, 3⟩ rfl⟩

end Primer.Scanner
