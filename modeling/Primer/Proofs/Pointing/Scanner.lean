import Primer.Proofs.Integer
import Primer.Proofs.Session.Numbering

/-!
# Where lexemes and lexical faults stand

A line splits from its first character on into gaps and tokens (`Scanner.Reaches`). Every lexeme
names the character that its token starts with, and a fault names the text that no token can be
(`Scanner.Offends`): the character that this text starts with or, in a number, the second point.

`scanFrom` is followed once, character by character (`scanFrom_stands`), and what holds of a line
is then carried over to the numbered lines of a source.
-/

set_option autoImplicit false

namespace Primer

namespace Scanner

/-- The first `n` characters of the text are whole gaps and tokens. -/
inductive Reaches (cs : List Char) : Nat → Prop
  | start : Reaches cs 0
  | gap {n more : Nat} {c : Char} {rest : List Char} (h : Reaches cs n)
      (hrest : cs.drop n = c :: rest) (hpiece : piece c rest = .gap more) :
      Reaches cs (n + 1 + more)
  | token {n more : Nat} {c : Char} {rest : List Char} {t : Token} (h : Reaches cs n)
      (hrest : cs.drop n = c :: rest) (hpiece : piece c rest = .token t more) :
      Reaches cs (n + 1 + more)

/-- The characters that a mark starts with. -/
def markStarts : List Char :=
  ['+', '-', '*', '/', '^', '(', ')', ',', '=', '<', '>', '!']

/-- The text starts with something that is no gap and no token, for the cause, which is reported
the given number of characters after the start. -/
inductive Offends : Cause → List Char → Nat → Prop
  | unexpectedCharacter {c : Char} (rest : List Char) (hgap : isGap c = false)
      (hdigit : c.isDigit = false) (hquote : isQuote c = false) (hname : startsName c = false)
      (hmark : c ∉ markStarts) : Offends (.unexpectedCharacter c) (c :: rest) 0
  | loneBang {rest : List Char} (h : rest.head? ≠ some '=') : Offends .loneBang ('!' :: rest) 0
  | secondPoint {whole fraction : List Char} (rest : List Char) (hsome : whole ≠ [])
      (hwhole : ∀ c ∈ whole, c.isDigit = true) (hfraction : ∀ c ∈ fraction, c.isDigit = true) :
      Offends .secondPoint (whole ++ '.' :: (fraction ++ '.' :: rest))
        (whole.length + 1 + fraction.length)
  | integerTooLarge {digits rest : List Char} (hsome : digits ≠ [])
      (hdigits : ∀ c ∈ digits, c.isDigit = true)
      (hrest : ∀ c, rest.head? = some c → c.isDigit = false ∧ c ≠ '.')
      (hlarge : Integer.limit ≤ Nat.ofDigitChars 10 digits 0) :
      Offends (.integerTooLarge (String.ofList digits)) (digits ++ rest) 0
  | unclosedText {quote : Char} {rest : List Char} (hquote : isQuote quote = true)
      (hopen : quote ∉ rest) : Offends .unclosedText (quote :: rest) 0

namespace Offends

variable {cause : Cause} {cs : List Char} {offset : Nat}

theorem family (h : Offends cause cs offset) : cause.family = .lexical := by
  cases h <;> rfl

/-- The fault is reported at a character of the text. -/
theorem lt_length (h : Offends cause cs offset) : offset < cs.length := by
  cases h with
  | unexpectedCharacter rest => simp
  | loneBang h => simp
  | secondPoint rest =>
    simp only [List.length_append, List.length_cons]
    omega
  | integerTooLarge hsome =>
    have hpositive := List.length_pos_iff.2 hsome
    rw [List.length_append]
    omega
  | unclosedText hquote => simp

end Offends

/-! ## One piece -/

theorem head?_dropWhile {p : Char → Bool} {cs : List Char} {c : Char}
    (h : (cs.dropWhile p).head? = some c) : p c = false := by
  have hnot := List.head?_dropWhile_not p cs
  rw [h] at hnot
  exact hnot

theorem isDigit_of_mem_takeWhile {c : Char} {cs : List Char}
    (h : c ∈ cs.takeWhile Char.isDigit) : c.isDigit = true :=
  List.all_eq_true.1 List.all_takeWhile c h

/-- A number is refused for the characters that offend. -/
theorem offends_number {c : Char} {cs : List Char} {cause : Cause} {offset : Nat}
    (hc : c.isDigit = true) (h : number c cs = .bad cause offset) :
    Offends cause (c :: cs) offset := by
  have hwhole : ∀ d ∈ c :: cs.takeWhile Char.isDigit, d.isDigit = true := by
    intro d hd
    rcases List.mem_cons.1 hd with rfl | hd
    · exact hc
    · exact isDigit_of_mem_takeWhile hd
  have hsplit : c :: cs = (c :: cs.takeWhile Char.isDigit) ++ cs.dropWhile Char.isDigit := by
    rw [List.cons_append, List.takeWhile_append_dropWhile]
  unfold number at h
  dsimp only at h
  split at h
  · next rest hpoint =>
    split at h
    · next later hsecond =>
      -- a point, further digits and a second point
      have hrest : rest.takeWhile Char.isDigit ++ '.' :: later = rest := by
        rw [← hsecond, List.takeWhile_append_dropWhile]
      have hoffends := Offends.secondPoint later (List.cons_ne_nil c _) hwhole
        fun d (hd : d ∈ rest.takeWhile Char.isDigit) => isDigit_of_mem_takeWhile hd
      rw [hrest, ← hpoint, ← hsplit, Nat.add_right_comm] at hoffends
      obtain ⟨rfl, rfl⟩ := Piece.bad.inj h
      exact hoffends
    · cases h
  · next hpoint =>
    split at h
    · cases h
    · next hnone =>
      obtain ⟨rfl, rfl⟩ := Piece.bad.inj h
      rw [hsplit]
      refine .integerTooLarge (List.cons_ne_nil c _) hwhole ?_ (Integer.ofDigits?_eq_none_iff.1 hnone)
      intro d hd
      refine ⟨head?_dropWhile hd, ?_⟩
      rintro rfl
      obtain ⟨rest, hrest⟩ := List.head?_eq_some_iff.1 hd
      exact hpoint rest hrest

theorem offends_quotation {quote : Char} {cs : List Char} {cause : Cause} {offset : Nat}
    (hquote : isQuote quote = true) (h : quotation quote cs = .bad cause offset) :
    Offends cause (quote :: cs) offset := by
  unfold quotation at h
  dsimp only at h
  split at h
  · cases h
  · next hlength =>
    obtain ⟨rfl, rfl⟩ := Piece.bad.inj h
    -- all characters were taken, so none of them is the quotation mark
    have hshort : (cs.takeWhile (· != quote)).length ≤ cs.length :=
      (List.takeWhile_prefix _).length_le
    have hall : cs.takeWhile (· != quote) = cs :=
      (List.takeWhile_prefix _).eq_of_length (by omega)
    refine .unclosedText hquote fun hmem => ?_
    rw [← hall] at hmem
    simpa using List.all_eq_true.1 List.all_takeWhile quote hmem

/-- Of the characters that a mark starts with, only an exclamation mark can fail. -/
theorem mark_bad {c : Char} {cs : List Char} {cause : Cause} {offset : Nat}
    (h : mark c cs = .bad cause offset) :
    (c = '!' ∧ cs.head? ≠ some '=' ∧ cause = .loneBang ∧ offset = 0) ∨
      (c ∉ markStarts ∧ cause = .unexpectedCharacter c ∧ offset = 0) := by
  unfold mark at h
  dsimp only at h
  split at h
  case h_13 =>
    obtain ⟨rfl, rfl⟩ := Piece.bad.inj h
    refine Or.inr ⟨?_, rfl, rfl⟩
    simp_all [markStarts]
  all_goals grind

theorem offends_mark {c : Char} {cs : List Char} {cause : Cause} {offset : Nat}
    (hgap : isGap c = false) (hdigit : c.isDigit = false) (hquote : isQuote c = false)
    (hname : startsName c = false) (h : mark c cs = .bad cause offset) :
    Offends cause (c :: cs) offset := by
  rcases mark_bad h with ⟨rfl, hhead, rfl, rfl⟩ | ⟨hmark, rfl, rfl⟩
  · exact .loneBang hhead
  · exact .unexpectedCharacter cs hgap hdigit hquote hname hmark

/-- What cannot be split off a text offends there. -/
theorem offends_piece {c : Char} {cs : List Char} {cause : Cause} {offset : Nat}
    (h : piece c cs = .bad cause offset) : Offends cause (c :: cs) offset := by
  unfold piece at h
  split at h
  · cases h
  next hgap =>
  split at h
  · cases h
  split at h
  · next hdigit => exact offends_number hdigit h
  next hdigit =>
  split at h
  · next hquote => exact offends_quotation hquote h
  next hquote =>
  split at h
  · cases h
  next hname =>
  -- a character that starts nothing else is left to the marks
  simp only [Bool.not_eq_true] at hgap hdigit hquote hname
  exact offends_mark hgap hdigit hquote hname h

/-! ## One line -/

/-- A token of the text starts at the column. -/
def TokenAt (cs : List Char) (t : Token) (column : Nat) : Prop :=
  Reaches cs column ∧
    ∃ c rest more, cs.drop column = c :: rest ∧ piece c rest = .token t more

/-- The text cannot be split any further for the cause, which is reported at the column. -/
def FaultAt (cs : List Char) (cause : Cause) (column : Nat) : Prop :=
  ∃ n offset, Reaches cs n ∧ Offends cause (cs.drop n) offset ∧ column = n + offset

/-- A token stands inside of its line. -/
theorem TokenAt.lt_length {cs : List Char} {t : Token} {column : Nat} (h : TokenAt cs t column) :
    column < cs.length := by
  obtain ⟨-, c, rest, more, hdrop, -⟩ := h
  have hlength := congrArg List.length hdrop
  rw [List.length_drop, List.length_cons] at hlength
  omega

theorem FaultAt.lt_length {cs : List Char} {cause : Cause} {column : Nat}
    (h : FaultAt cs cause column) : column < cs.length := by
  obtain ⟨n, offset, -, hoffends, rfl⟩ := h
  have hlength := hoffends.lt_length
  rw [List.length_drop] at hlength
  omega

/-- What a line splits into stands where it says. -/
def Stands (line : Nat) (cs : List Char) : Except Fault Row → Prop
  | .ok row => ∀ x ∈ row, x.position.line = line ∧ TokenAt cs x.token x.position.column
  | .error fault => fault.position.line = line ∧ FaultAt cs fault.cause fault.position.column

/-- The walk over a line keeps to its pieces: the next one starts where the characters to pass are
over. -/
theorem scanFrom_stands (line : Nat) (cs : List Char) :
    ∀ (rest : List Char) (column skip : Nat), cs.drop column = rest →
      Reaches cs (column + skip) → Stands line cs (scanFrom line column skip rest) := by
  intro rest
  induction rest with
  | nil =>
    intro column skip _ _ x hx
    exact absurd hx List.not_mem_nil
  | cons c rest ih =>
    intro column skip hdrop hreach
    have hnext : cs.drop (column + 1) = rest := by
      rw [← List.drop_drop, hdrop, List.drop_one, List.tail_cons]
    cases skip with
    | succ skip =>
      -- the character belongs to the piece before
      apply ih _ _ hnext
      rwa [Nat.add_right_comm]
    | zero =>
      -- a piece starts here
      rw [Nat.add_zero] at hreach
      simp only [scanFrom]
      cases hpiece : piece c rest with
      | gap more => exact ih _ _ hnext (hreach.gap hdrop hpiece)
      | bad cause offset =>
        refine ⟨rfl, column, offset, hreach, ?_, rfl⟩
        rw [hdrop]
        exact offends_piece hpiece
      | token t more =>
        have hlater := ih _ _ hnext (hreach.token hdrop hpiece)
        dsimp only
        cases hscan : scanFrom line (column + 1) more rest with
        | error fault =>
          rw [hscan] at hlater
          exact hlater
        | ok row =>
          rw [hscan] at hlater
          intro x hx
          rcases List.mem_cons.1 hx with rfl | hx
          · exact ⟨rfl, hreach, c, rest, more, hdrop, hpiece⟩
          · exact hlater x hx

/-- The tokens of a line stand where they say, or a fault does. -/
theorem scanLine_stands (line : Nat) (s : String) : Stands line s.toList (scanLine line s) :=
  scanFrom_stands line s.toList s.toList 0 0 rfl .start

/-! ## The lines of a source -/

/-- What lines numbered from `i` split into stands where it says. -/
def StandsFrom (i : Nat) (lines : List String) : Except Fault (List Row) → Prop
  | .ok rows => ∀ x ∈ rows.flatten, ∃ k s, x.position.line = i + k ∧ lines[k]? = some s ∧
      TokenAt s.toList x.token x.position.column
  | .error fault => ∃ k s, fault.position.line = i + k ∧ lines[k]? = some s ∧
      FaultAt s.toList fault.cause fault.position.column

/-- The tokens of all lines stand where they say, or a fault does. -/
theorem scanLines_stands (i : Nat) (lines : List String) :
    StandsFrom i lines (scanLines i lines) := by
  induction lines generalizing i with
  | nil =>
    intro x hx
    exact absurd hx List.not_mem_nil
  | cons s lines ih =>
    have hfirst := scanLine_stands i s
    have hlater := ih (i + 1)
    simp only [scanLines]
    cases hline : scanLine i s with
    | error fault =>
      rw [hline] at hfirst
      exact ⟨0, s, hfirst.1, rfl, hfirst.2⟩
    | ok row =>
      rw [hline] at hfirst
      dsimp only
      cases hlines : scanLines (i + 1) lines with
      | error fault =>
        rw [hlines] at hlater
        obtain ⟨k, s', hk, hs', hfault⟩ := hlater
        exact ⟨k + 1, s', by omega, hs', hfault⟩
      | ok rows =>
        rw [hlines] at hlater
        intro x hx
        rw [List.flatten_cons, List.mem_append] at hx
        rcases hx with hx | hx
        · exact ⟨0, s, (hfirst x hx).1, rfl, (hfirst x hx).2⟩
        · obtain ⟨k, s', hk, hs', htoken⟩ := hlater x hx
          exact ⟨k + 1, s', by omega, hs', htoken⟩

end Scanner

end Primer
