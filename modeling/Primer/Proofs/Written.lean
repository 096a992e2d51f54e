import Primer.Eval.TopLevel
import Primer.Proofs.Pattern.Spelling

/-!
# Scalars are read back from what is shown of them

What is shown of an integer or a truth value is itself a program of one line, and so is a text
between quotation marks: the line splits, parses and evaluates to the value that it was written for
(`Value.shown_evaluates`). A negative integer comes back through the sign in front of its digits, so
the least integer does not come back at all: its digits alone are out of range.
-/

set_option autoImplicit false

namespace Primer

/-- As a program of one line the text is the expression, which has the value in every state and
leaves the state as it is. Running the program shows the value if values are shown. -/
structure Value.WrittenBy (v : Value) (text : String) (e : Expr) : Prop where
  reads : Program.statementsOf [text] = .ok [.expr e]
  evaluates : ∀ (κ : Type) [Console κ] (m : Machine κ) (n : Nat),
    Eval.expr (n + 2) e m = .done (some v) m
  runs : ∀ (κ : Type) [Console κ] (m : Machine κ) (n : Nat),
    Eval.lines (n + 3) [text] m =
      if m.echo then Machine.writeLine v.shown e.position m else .done () m

/-- The expression that an integer is written as, in the first columns of the first line. -/
def Expr.ofInteger (n : Int64) : Expr :=
  if n.toInt < 0 then .unary .minus (.literal (.integer (-n)) ⟨0, 1⟩) ⟨0, 0⟩
  else .literal (.integer n) ⟨0, 0⟩

/-- A text between two marks. -/
def Scanner.enclosed (quote : Char) (s : String) : String :=
  String.ofList (quote :: (s.toList ++ [quote]))

/-! ## Lines of one expression -/

namespace Value.WrittenBy

variable {v : Value} {text : String} {e : Expr} {row : Row}

/-- Running a program that is one expression is evaluating it, but for what is shown. -/
theorem runs_of_reads (hread : Program.ofLines [text] = .ok ⟨[.expr e], none⟩)
    (hvalue : ∀ (κ : Type) [Console κ] (m : Machine κ) (n : Nat),
      Eval.expr (n + 2) e m = .done (some v) m)
    (κ : Type) [Console κ] (m : Machine κ) (n : Nat) :
    Eval.lines (n + 3) [text] m =
      if m.echo then Machine.writeLine v.shown e.position m else .done () m := by
  have hstmt : Eval.stmt (n + 3) (.expr e) m = .done (.next (some v)) m := by
    simp only [Eval.stmt, bind, hvalue]
    rfl
  simp only [Eval.lines, hread, Eval.program, Eval.topLevels, Eval.topLevel, bind, hstmt,
    Flow.value, Stmt.position]
  cases m.echo with
  | false => rfl
  | true =>
    simp only [if_true, Dialogue.writeLine]
    cases Machine.writeLine v.shown e.position m <;> rfl

/-- A line that splits into a row which reads as an expression. -/
theorem of_row (hscan : Scanner.scanLine 0 text = .ok row)
    (hread : Program.ofRows [row] = ⟨[.expr e], none⟩)
    (hvalue : ∀ (κ : Type) [Console κ] (m : Machine κ) (n : Nat),
      Eval.expr (n + 2) e m = .done (some v) m) : v.WrittenBy text e := by
  have hlines : Program.ofLines [text] = .ok ⟨[.expr e], none⟩ := by
    simp only [Program.ofLines, Scanner.scan, Scanner.scanLines, hscan, Except.map, hread]
  exact ⟨by rw [Program.statementsOf, hlines]; rfl, hvalue, runs_of_reads hlines hvalue⟩

end Value.WrittenBy

namespace Scanner

/-- A line that is one word. -/
theorem scanLine_readAs {s : String} {t : Token} (h : ReadAs s.toList t []) :
    scanLine 0 s = .ok [⟨t, ⟨0, 0⟩⟩] := by
  have hscan := scanFrom_readAs 0 0 h
  rw [List.append_nil] at hscan
  rw [scanLine, hscan]
  rfl

/-- A line that is a minus and the digits of an integer. -/
theorem scanLine_minus {n : Int64} (hn : 0 ≤ n.toInt) :
    scanLine 0 ("-" ++ Integer.text n) = .ok [⟨.mark .minus, ⟨0, 0⟩⟩, ⟨.integer n, ⟨0, 1⟩⟩] := by
  have hsign : ReadAs ['-'] (.mark .minus) (Integer.text n).toList := ⟨'-', [], rfl, rfl⟩
  have hdigits := scanFrom_readAs 0 1 (@readAs_integer n [] hn (by simp))
  rw [List.append_nil] at hdigits
  rw [scanLine, String.toList_append, show ("-" : String).toList = ['-'] from rfl,
    scanFrom_readAs 0 0 hsign, List.length_singleton, hdigits]
  rfl

end Scanner

/-- The opposite of an integer other than the least. -/
theorem Integer.toInt_neg {n : Int64} (h : n ≠ Int64.minValue) : (-n).toInt = -n.toInt := by
  have hrange := inRange_toInt n
  have hleast : n.toInt ≠ -limit := fun hn => h (Int64.toInt_inj.1 hn)
  rw [Int64.toInt_neg]
  simp only [InRange, limit] at *
  exact Int.bmod_eq_of_le (by omega) (by omega)

/-- A negative integer is shown as a minus and the digits of its opposite. -/
theorem Integer.text_of_neg {n : Int64} (hn : n.toInt < 0) (h : n ≠ Int64.minValue) :
    text n = "-" ++ text (-n) := by
  have hopposite := toInt_neg h
  rw [text, if_pos hn, text, if_neg (by omega), hopposite, Int.natAbs_neg]

namespace Value

/-- Both kinds of integers, those without a sign and those with one. -/
theorem integer_writtenBy {n : Int64} (h : n ≠ Int64.minValue) :
    (integer n).WrittenBy (integer n).shown (Expr.ofInteger n) := by
  unfold Expr.ofInteger
  split
  · next hn =>
    have hopposite := Integer.toInt_neg h
    have hscan := Scanner.scanLine_minus (n := -n) (by omega)
    rw [← Integer.text_of_neg hn h] at hscan
    refine .of_row hscan rfl fun κ _ m k => ?_
    have hback : Integer.fit? (-(-n).toInt) = some n := by
      rw [Integer.fit?_eq_some_iff, hopposite, Int.neg_neg]
    simp only [Eval.expr, Eval.required, bind, pure, ofLiteral, UnaryOp.apply, hback,
      Exec.ofExcept]
  · next hn =>
    have hread := @Scanner.readAs_integer n [] (by omega) (by simp)
    exact .of_row (Scanner.scanLine_readAs hread) rfl fun κ _ m k => rfl

/-- A Boolean is written by the word that shows it. -/
theorem boolean_writtenBy (b : Bool) :
    (boolean b).WrittenBy (boolean b).shown (.literal (.boolean b) ⟨0, 0⟩) := by
  have hread := @Scanner.readAs_of_isWord [] _ (Scanner.isWord_booleanText b) (by simp)
  rw [Scanner.classify_booleanText] at hread
  exact .of_row (Scanner.scanLine_readAs hread) rfl fun κ _ m k => rfl

/-- A text without a quote is written between two of them. -/
theorem text_writtenBy {quote : Char} {s : String} (hquote : quote = '"' ∨ quote = '\x27')
    (hs : quote ∉ s.toList) :
    (text s).WrittenBy (Scanner.enclosed quote s) (.literal (.text s) ⟨0, 0⟩) := by
  have hmark : Scanner.isQuote quote = true := by rcases hquote with rfl | rfl <;> decide
  have hread := @Scanner.readAs_text [] _ _ hmark hs
  rw [← String.toList_ofList (l := quote :: (s.toList ++ [quote]))] at hread
  exact .of_row (Scanner.scanLine_readAs hread) rfl fun κ _ m k => rfl

/-- **Scalars are read back from what is shown of them.** What is shown of an integer other than
the least evaluates to it, with the sign of a negative one as an operator; the digits of the least
are too large for an integer. What is shown of a truth value evaluates to it, and so does every text
between two marks of which it holds none, whatever else it holds. -/
theorem shown_evaluates :
    (∀ n : Int64, n ≠ Int64.minValue →
      (integer n).WrittenBy (integer n).shown (Expr.ofInteger n)) ∧
    (Program.ofLines [(integer Int64.minValue).shown] =
        .error ⟨.integerTooLarge "9223372036854775808", ⟨0, 1⟩⟩ ∧
      (Cause.integerTooLarge "9223372036854775808").family = .lexical) ∧
    (∀ b : Bool, (boolean b).WrittenBy (boolean b).shown (.literal (.boolean b) ⟨0, 0⟩)) ∧
    ∀ (quote : Char) (s : String), quote = '"' ∨ quote = '\x27' → quote ∉ s.toList →
      (text s).WrittenBy (Scanner.enclosed quote s) (.literal (.text s) ⟨0, 0⟩) :=
  ⟨fun _ h => integer_writtenBy h, ⟨rfl, rfl⟩, boolean_writtenBy,
    fun _ _ hquote hs => text_writtenBy hquote hs⟩

/-- The integer above the least, and a text with a word, a comment, the other mark and a line
feed. -/
theorem shown_evaluates_words :
    (-9223372036854775807 : Int64) ≠ Int64.minValue ∧
      (integer (-9223372036854775807)).WrittenBy "-9223372036854775807"
        (.unary .minus (.literal (.integer 9223372036854775807) ⟨0, 1⟩) ⟨0, 0⟩) ∧
      '"' ∉ "if // it's é\n".toList ∧
      (text "if // it's é\n").WrittenBy "\"if // it's é\n\""
        (.literal (.text "if // it's é\n") ⟨0, 0⟩) := by
  have hn : (-9223372036854775807 : Int64) ≠ Int64.minValue := by decide
  have hs : '"' ∉ "if // it's é\n".toList := by simp
  have hshown : (integer (-9223372036854775807)).shown = "-9223372036854775807" := by
    decide +kernel
  have henclosed : Scanner.enclosed '"' "if // it's é\n" = "\"if // it's é\n\"" := by rfl
  obtain ⟨hinteger, -, -, htext⟩ := shown_evaluates
  have hreads := hinteger _ hn
  have hquoted := htext '"' _ (Or.inl rfl) hs
  rw [hshown] at hreads
  rw [henclosed] at hquoted
  exact ⟨hn, hreads, hs, hquoted⟩

end Value

end Primer
