import Mathlib.Data.List.TakeWhile
import Primer.Proofs.Pointing.Scanner

/-!
# The patterns of tokens

What a piece of a line can be is declared by patterns (`Scanner.Pattern`): those of tokens, those
of what separates tokens, and those of pieces that are refused. At every place of a line the
longest text counts that any of them matches, and of the patterns that match it a reserved word
goes before a name. This is what `Scanner.piece` computes: it gives a token exactly if the longest
match is a spelling of this token (`Scanner.piece_token_iff`).
-/

set_option autoImplicit false

namespace Primer.Scanner

/-! ## Patterns and spellings -/

/-- What a piece of a line can be. -/
inductive Pattern where
  | digits | point | secondPoint
  | quoted (quote : Char) | unclosed (quote : Char)
  | boolean (b : Bool) | keyword (k : Keyword) | name | mark (m : Mark)
  | comment | blanks

/-- The texts that a pattern matches. -/
inductive Pattern.Matches : Pattern → List Char → Prop
  | digits {w : List Char} (hsome : w ≠ []) (hw : ∀ c ∈ w, c.isDigit = true) :
      Matches .digits w
  | point {whole fraction : List Char} (hsome : whole ≠ [])
      (hwhole : ∀ c ∈ whole, c.isDigit = true) (hfraction : ∀ c ∈ fraction, c.isDigit = true) :
      Matches .point (whole ++ '.' :: fraction)
  | secondPoint {whole fraction : List Char} (hsome : whole ≠ [])
      (hwhole : ∀ c ∈ whole, c.isDigit = true) (hfraction : ∀ c ∈ fraction, c.isDigit = true) :
      Matches .secondPoint (whole ++ '.' :: (fraction ++ ['.']))
  | quoted {quote : Char} {body : List Char} (hquote : isQuote quote = true)
      (hbody : quote ∉ body) : Matches (.quoted quote) (quote :: (body ++ [quote]))
  | unclosed {quote : Char} {body : List Char} (hquote : isQuote quote = true)
      (hbody : quote ∉ body) : Matches (.unclosed quote) (quote :: body)
  | boolean (b : Bool) : Matches (.boolean b) (booleanText b).toList
  | keyword (k : Keyword) : Matches (.keyword k) k.text.toList
  | name {c : Char} {cs : List Char} (hc : startsName c = true)
      (hcs : ∀ d ∈ cs, continuesName d = true) : Matches .name (c :: cs)
  | mark (m : Mark) : Matches (.mark m) m.text.toList
  | comment {body : List Char} (hbody : '\n' ∉ body) : Matches .comment ('/' :: '/' :: body)
  | blanks {w : List Char} (hsome : w ≠ []) (hw : ∀ c ∈ w, isGap c = true) : Matches .blanks w

/-- The texts that a token is written with. A name is none of the reserved words. -/
inductive Spells : Token → List Char → Prop
  | integer {n : Int64} {w : List Char} (hsome : w ≠ []) (hw : ∀ c ∈ w, c.isDigit = true)
      (hvalue : n.toInt = Nat.ofDigitChars 10 w 0) : Spells (.integer n) w
  | float {whole fraction : List Char} (hsome : whole ≠ [])
      (hwhole : ∀ c ∈ whole, c.isDigit = true) (hfraction : ∀ c ∈ fraction, c.isDigit = true) :
      Spells
        (.float (Decimal.ofDigits (whole ++ fraction) (-Int.ofNat fraction.length)).toFloat)
        (whole ++ '.' :: fraction)
  | boolean (b : Bool) : Spells (.boolean b) (booleanText b).toList
  | text {quote : Char} {s : String} (hquote : isQuote quote = true) (hs : quote ∉ s.toList) :
      Spells (.text s) (quote :: (s.toList ++ [quote]))
  | name {s : String} {c : Char} {cs : List Char} (hs : s.toList = c :: cs)
      (hc : startsName c = true) (hcs : ∀ d ∈ cs, continuesName d = true)
      (hboolean : ∀ b, s ≠ booleanText b) (hkeyword : ∀ k : Keyword, s ≠ k.text) :
      Spells (.name s) s.toList
  | keyword (k : Keyword) : Spells (.keyword k) k.text.toList
  | mark (m : Mark) : Spells (.mark m) m.text.toList

/-- The word is the longest text that any pattern matches at the start of the text. -/
structure Longest (w text : List Char) : Prop where
  matched : ∃ p : Pattern, p.Matches w
  starts : w <+: text
  longest : ∀ (p : Pattern) (v : List Char), p.Matches v → v <+: text → v.length ≤ w.length

namespace Longest

variable {w rest text : List Char}

/-- No pattern goes on from a longest match with the next character. -/
theorem not_matches_concat (h : Longest w (w ++ rest)) {c : Char} (hc : c ∈ rest.head?)
    (p : Pattern) : ¬p.Matches (w ++ [c]) := by
  obtain ⟨later, rfl⟩ := List.head?_eq_some_iff.1 hc
  intro hmatches
  have hle := h.longest p _ hmatches ⟨later, by simp⟩
  rw [List.length_append, List.length_singleton] at hle
  omega

/-- A longest match in a text is one in every first part of the text that holds it. -/
theorem of_append {more : List Char} (h : Longest w (w ++ (rest ++ more))) :
    Longest w (w ++ rest) where
  matched := h.matched
  starts := List.prefix_append w rest
  longest p v hv hstarts :=
    h.longest p v hv (hstarts.trans ⟨more, by rw [List.append_assoc]⟩)

/-- If any pattern matches at the start of a text, one has a longest match. -/
theorem exists_of_matches {p : Pattern} {v : List Char} (hv : p.Matches v) (hstarts : v <+: text) :
    ∃ w, Longest w text := by
  -- by induction on how much longer a match can be
  induction hleft : text.length - v.length using Nat.strongRecOn generalizing p v with
  | ind n ih =>
    by_cases hlongest : ∃ q u, Pattern.Matches q u ∧ u <+: text ∧ v.length < u.length
    · obtain ⟨q, u, hu, hustarts, hlonger⟩ := hlongest
      have hle := hustarts.length_le
      exact ih (text.length - u.length) (by omega) hu hustarts rfl
    · refine ⟨v, ⟨p, hv⟩, hstarts, fun q u hu hustarts => ?_⟩
      exact Nat.le_of_not_lt fun hlonger => hlongest ⟨q, u, hu, hustarts, hlonger⟩

end Longest

/-! ## What starts at a character -/

section Classes

variable {p : Char → Bool} {c d : Char} {cs rest : List Char}

/-- Characters of which only one is in a class are different. -/
theorem ne_of_class (hc : p c = true) (hd : p d = false) : c ≠ d := by
  rintro rfl
  rw [hc] at hd
  cases hd

theorem bne_of_not_mem (hcs : c ∉ cs) : ∀ d ∈ cs, (d != c) = true := by
  intro d hd
  rw [bne_iff_ne]
  rintro rfl
  exact hcs hd

/-- A run of characters is taken up to the first that does not belong to it. -/
theorem takeWhile_append_stop (hcs : ∀ x ∈ cs, p x = true) (hrest : ∀ x ∈ rest.head?, p x = false) :
    (cs ++ rest).takeWhile p = cs := by
  rw [List.takeWhile_append_of_pos hcs]
  cases rest with
  | nil => simp
  | cons x rest => simp [hrest x rfl]

/-- A run of characters is dropped up to the first that does not belong to it. -/
theorem dropWhile_append_stop (hcs : ∀ x ∈ cs, p x = true) (hrest : ∀ x ∈ rest.head?, p x = false) :
    (cs ++ rest).dropWhile p = rest := by
  rw [List.dropWhile_append_of_pos hcs]
  cases rest with
  | nil => simp
  | cons x rest => simp [hrest x rfl]

end Classes

variable {c : Char} {cs rest fraction : List Char}

theorem piece_of_isGap (hc : isGap c = true) : piece c cs = .gap 0 := by
  rw [piece, if_pos hc]

/-- A comment is one gap up to the end of the line. -/
theorem piece_comment :
    piece '/' ('/' :: cs) = .gap (('/' :: cs).takeWhile (· != '\n')).length := rfl

/-- A character of a class without blanks and slashes starts neither a gap nor a comment. -/
theorem piece_of_class {p : Char → Bool} (hc : p c = true)
    (hother : [' ', '\t', '\r', '\x0c', '/'].all (!p ·) = true) :
    piece c cs =
      if c.isDigit then number c cs
      else if isQuote c then quotation c cs
      else if startsName c then
        .token (classify (String.ofList (c :: cs.takeWhile continuesName)))
          (cs.takeWhile continuesName).length
      else mark c cs := by
  have hne : ∀ d ∈ [' ', '\t', '\r', '\x0c', '/'], c ≠ d := fun d hd =>
    ne_of_class hc (by simpa using List.all_eq_true.1 hother d hd)
  simp only [List.forall_mem_cons] at hne
  simp [piece, isGap, hne]

theorem piece_of_isDigit (hc : c.isDigit = true) : piece c cs = number c cs := by
  rw [piece_of_class hc rfl, if_pos hc]

theorem piece_of_isQuote (hc : isQuote c = true) : piece c cs = quotation c cs := by
  have hdigit : c.isDigit = false := by
    obtain rfl | rfl : c = '"' ∨ c = '\x27' := by simpa [isQuote] using hc
    all_goals decide
  rw [piece_of_class hc rfl, if_neg (Bool.eq_false_iff.1 hdigit), if_pos hc]

/-- Digits alone are an integer if they fit, and are refused if not. -/
theorem number_digits (hcs : ∀ d ∈ cs, d.isDigit = true)
    (hrest : ∀ d ∈ rest.head?, d.isDigit = false ∧ d ≠ '.') :
    number c (cs ++ rest) =
      match Integer.ofDigits? false (c :: cs) with
      | some n => .token (.integer n) cs.length
      | none => .bad (.integerTooLarge (String.ofList (c :: cs))) 0 := by
  have hstop : ∀ d ∈ rest.head?, d.isDigit = false := fun d hd => (hrest d hd).1
  simp only [number, takeWhile_append_stop hcs hstop, dropWhile_append_stop hcs hstop]
  split
  · next later hpoint => exact absurd rfl (hrest '.' rfl).2
  · cases Integer.ofDigits? false (c :: cs) <;> rfl

/-- Digits with one point are a double. -/
theorem number_point (hcs : ∀ d ∈ cs, d.isDigit = true)
    (hfraction : ∀ d ∈ fraction, d.isDigit = true)
    (hrest : ∀ d ∈ rest.head?, d.isDigit = false ∧ d ≠ '.') :
    number c (cs ++ '.' :: (fraction ++ rest)) =
      .token
        (.float (Decimal.ofDigits (c :: cs ++ fraction) (-Int.ofNat fraction.length)).toFloat)
        (cs.length + 1 + fraction.length) := by
  have hpoint : ∀ d ∈ ('.' :: (fraction ++ rest)).head?, d.isDigit = false := by
    rintro d hd
    obtain rfl : '.' = d := by simpa using hd
    decide
  have hstop : ∀ d ∈ rest.head?, d.isDigit = false := fun d hd => (hrest d hd).1
  simp only [number, takeWhile_append_stop hcs hpoint, dropWhile_append_stop hcs hpoint,
    takeWhile_append_stop hfraction hstop, dropWhile_append_stop hfraction hstop]
  split
  · next later hsecond => exact absurd rfl (hrest '.' rfl).2
  · rfl

theorem number_secondPoint (hcs : ∀ d ∈ cs, d.isDigit = true)
    (hfraction : ∀ d ∈ fraction, d.isDigit = true) :
    number c (cs ++ '.' :: (fraction ++ '.' :: rest)) =
      .bad .secondPoint (cs.length + 1 + fraction.length + 1) := by
  have hpoint : ∀ (r : List Char), ∀ d ∈ ('.' :: r).head?, d.isDigit = false := by
    rintro r d hd
    obtain rfl : '.' = d := by simpa using hd
    decide
  simp only [number, takeWhile_append_stop hcs (hpoint _), dropWhile_append_stop hcs (hpoint _),
    takeWhile_append_stop hfraction (hpoint _), dropWhile_append_stop hfraction (hpoint _)]
  rfl

/-- A text goes up to its own quote. -/
theorem quotation_closed {quote : Char} (hcs : quote ∉ cs) :
    quotation quote (cs ++ quote :: rest) = .token (.text (String.ofList cs)) (cs.length + 1) := by
  have hstop : ∀ d ∈ (quote :: rest).head?, (d != quote) = false := by simp
  simp [quotation, takeWhile_append_stop (bne_of_not_mem hcs) hstop]

theorem quotation_unclosed {quote : Char} (hcs : quote ∉ cs) :
    quotation quote cs = .bad .unclosedText 0 := by
  simp [quotation, List.takeWhile_eq_self_iff.2 (bne_of_not_mem hcs)]

/-- No name starts with a digit. -/
theorem isDigit_eq_false (h : startsName c = true) : c.isDigit = false := by
  -- the digits stand before the letters and the underscore
  have hcode : 'A'.val ≤ c.val := by
    change (decide (c.val ≥ 'A'.val ∧ c.val ≤ 'Z'.val) ||
      (decide (c.val ≥ 'a'.val) && decide (c.val ≤ 'z'.val)) || c == '_') = true at h
    simp only [Bool.or_eq_true, Bool.and_eq_true, decide_eq_true_eq, beq_iff_eq] at h
    rcases h with (h | h) | rfl
    · exact h.1
    · exact UInt32.le_trans (by decide) h.1
    · decide
  refine Bool.eq_false_iff.2 fun hdigit => ?_
  have hletter : 65 ≤ c.toNat := UInt32.le_iff_toNat_le.1 hcode
  have hnine : c.toNat ≤ 57 := (Char.isDigit_iff_toNat.1 hdigit).2
  omega

/-- A word runs up to the first character that does not continue it. -/
theorem piece_word (hc : startsName c = true) (hcs : ∀ d ∈ cs, continuesName d = true)
    (hrest : ∀ d ∈ rest.head?, continuesName d = false) :
    piece c (cs ++ rest) = .token (classify (String.ofList (c :: cs))) cs.length := by
  -- what starts a word starts no number and no text
  have hquote : isQuote c = false := by
    have hne : ∀ d : Char, startsName d = false → c ≠ d := fun d hd => ne_of_class hc hd
    simp [isQuote, hne '"' (by decide), hne '\x27' (by decide)]
  rw [piece_of_class hc rfl, if_neg (Bool.eq_false_iff.1 (isDigit_eq_false hc)),
    if_neg (Bool.eq_false_iff.1 hquote), if_pos hc, takeWhile_append_stop hcs hrest]

/-- The word is read as the token in front of the rest. -/
def ReadAs (w : List Char) (t : Token) (rest : List Char) : Prop :=
  ∃ c cs, w = c :: cs ∧ piece c (cs ++ rest) = .token t cs.length

/-- A mark is read if no pattern goes on from it with the next character. -/
theorem readAs_mark (m : Mark)
    (hrest : ∀ d ∈ rest.head?, ∀ p : Pattern, ¬p.Matches (m.text.toList ++ [d])) :
    ReadAs m.text.toList (.mark m) rest := by
  -- the mark is longest, so no character follows that would make it longer
  have hother : ∀ (d : Char) (p : Pattern), p.Matches (m.text.toList ++ [d]) →
      (rest.head? == some d) = false := by
    intro d p hmatches
    rw [beq_eq_false_iff_ne]
    exact fun h => hrest d h p hmatches
  -- only these marks begin another one
  cases m with
  | slash =>
    have hslash := hother '/' .comment (@Pattern.Matches.comment [] List.not_mem_nil)
    refine ⟨'/', [], rfl, ?_⟩
    rw [List.nil_append, piece, if_neg (by decide), hslash]
    rfl
  | assign =>
    have hequal := hother '=' (.mark .equal) (.mark .equal)
    refine ⟨'=', [], rfl, ?_⟩
    change mark '=' rest = _
    simp only [mark, hequal]
    rfl
  | less =>
    have hequal := hother '=' (.mark .lessEqual) (.mark .lessEqual)
    refine ⟨'<', [], rfl, ?_⟩
    change mark '<' rest = _
    simp only [mark, hequal]
    rfl
  | greater =>
    have hequal := hother '=' (.mark .greaterEqual) (.mark .greaterEqual)
    refine ⟨'>', [], rfl, ?_⟩
    change mark '>' rest = _
    simp only [mark, hequal]
    rfl
  | _ => exact ⟨_, _, rfl, rfl⟩

/-! ## Reserved words -/

/-- The text is that of a word. -/
def IsWord (w : List Char) : Prop :=
  ∃ c cs, w = c :: cs ∧ startsName c = true ∧ ∀ d ∈ cs, continuesName d = true

theorem isWord_booleanText (b : Bool) : IsWord (booleanText b).toList := by
  cases b <;> exact ⟨_, _, rfl, by decide, List.all_eq_true.1 rfl⟩

theorem isWord_keyword (k : Keyword) : IsWord k.text.toList := by
  cases k <;> exact ⟨_, _, rfl, by decide, List.all_eq_true.1 rfl⟩

theorem classify_booleanText (b : Bool) : classify (booleanText b) = .boolean b := by
  cases b <;> rfl

/-- A word that is a keyword is no name. -/
theorem classify_keyword (k : Keyword) : classify k.text = .keyword k := by
  cases k <;> rfl

/-- Every other word is a name. -/
theorem classify_of_ne {s : String} (hboolean : ∀ b, s ≠ booleanText b)
    (hkeyword : ∀ k : Keyword, s ≠ k.text) : classify s = .name s := by
  have hnone : Keyword.ofText? s = none := by
    simp only [Keyword.ofText?, List.find?_eq_none, beq_iff_eq]
    exact fun k _ h => hkeyword k h.symm
  simp only [classify, hboolean, if_false, hnone]

/-! ## Longest matches -/

namespace Longest

variable {w whole : List Char}

/-- A longest match of digits goes on neither with a digit nor with a point. -/
theorem head_of_digits (h : Longest w (w ++ rest)) (hsome : w ≠ [])
    (hw : ∀ d ∈ w, d.isDigit = true) : ∀ d ∈ rest.head?, d.isDigit = false ∧ d ≠ '.' := by
  refine fun d hd => ⟨Bool.eq_false_iff.2 fun hdigit => ?_, ?_⟩
  · refine h.not_matches_concat hd .digits (.digits (by simp) ?_)
    exact List.forall_mem_append.2 ⟨hw, List.forall_mem_singleton.2 hdigit⟩
  · rintro rfl
    exact h.not_matches_concat hd .point (.point hsome hw (by simp))

/-- A longest match with a point goes on neither with a digit nor with a second point. -/
theorem head_of_point (h : Longest (whole ++ '.' :: fraction) (whole ++ '.' :: fraction ++ rest))
    (hsome : whole ≠ []) (hwhole : ∀ d ∈ whole, d.isDigit = true)
    (hfraction : ∀ d ∈ fraction, d.isDigit = true) :
    ∀ d ∈ rest.head?, d.isDigit = false ∧ d ≠ '.' := by
  refine fun d hd => ⟨Bool.eq_false_iff.2 fun hdigit => ?_, ?_⟩
  · refine h.not_matches_concat hd .point ?_
    rw [List.append_assoc, List.cons_append]
    exact .point hsome hwhole
      (List.forall_mem_append.2 ⟨hfraction, List.forall_mem_singleton.2 hdigit⟩)
  · rintro rfl
    refine h.not_matches_concat hd .secondPoint ?_
    rw [List.append_assoc, List.cons_append]
    exact .secondPoint hsome hwhole hfraction

/-- A word that is a longest match does not go on. -/
theorem head_of_word (h : Longest w (w ++ rest)) (hw : IsWord w) :
    ∀ d ∈ rest.head?, continuesName d = false := by
  obtain ⟨c, cs, rfl, hc, hcs⟩ := hw
  refine fun d hd => Bool.eq_false_iff.2 fun hcontinues => ?_
  refine h.not_matches_concat hd .name (.name hc ?_)
  exact List.forall_mem_append.2 ⟨hcs, List.forall_mem_singleton.2 hcontinues⟩

/-- A text that is not closed goes on to the end. -/
theorem rest_of_unclosed {quote : Char} {body : List Char} (hquote : isQuote quote = true)
    (hbody : quote ∉ body) (h : Longest (quote :: body) (quote :: body ++ rest)) : rest = [] := by
  cases rest with
  | nil => rfl
  | cons d rest =>
    exfalso
    by_cases hd : d = quote
    · subst hd
      exact h.not_matches_concat rfl (.quoted d) (.quoted hquote hbody)
    · refine h.not_matches_concat rfl (.unclosed quote) (.unclosed hquote ?_)
      simp [hbody, Ne.symm hd]

end Longest

/-- A word is read if it does not go on. -/
theorem readAs_of_isWord {s : String} (hs : IsWord s.toList)
    (hrest : ∀ d ∈ rest.head?, continuesName d = false) : ReadAs s.toList (classify s) rest := by
  obtain ⟨c, cs, hcs, hc, hcontinues⟩ := hs
  refine ⟨c, cs, hcs, ?_⟩
  rw [piece_word hc hcontinues hrest, ← hcs, String.ofList_toList]

/-- A text between two marks of which it holds none is read, whatever comes after it. -/
theorem readAs_text {quote : Char} {s : String} (hquote : isQuote quote = true)
    (hs : quote ∉ s.toList) : ReadAs (quote :: (s.toList ++ [quote])) (.text s) rest := by
  refine ⟨quote, s.toList ++ [quote], rfl, ?_⟩
  rw [List.append_assoc, List.singleton_append, piece_of_isQuote hquote, quotation_closed hs,
    String.ofList_toList, List.length_append, List.length_singleton]

/-- A spelling that is a longest match is read as its token. -/
theorem readAs_of_spells {t : Token} {w : List Char} (ht : Spells t w)
    (h : Longest w (w ++ rest)) : ReadAs w t rest := by
  cases ht with
  | integer hsome hw hvalue =>
    have hrest := h.head_of_digits hsome hw
    obtain ⟨c, cs, rfl⟩ := List.exists_cons_of_ne_nil hsome
    obtain ⟨hc, hcs⟩ := List.forall_mem_cons.1 hw
    refine ⟨c, cs, rfl, ?_⟩
    rw [piece_of_isDigit hc, number_digits hcs hrest, Integer.ofDigits?_eq_some_iff.2 hvalue]
  | @float whole fraction hsome hwhole hfraction =>
    have hrest := h.head_of_point hsome hwhole hfraction
    obtain ⟨c, cs, rfl⟩ := List.exists_cons_of_ne_nil hsome
    obtain ⟨hc, hcs⟩ := List.forall_mem_cons.1 hwhole
    refine ⟨c, cs ++ '.' :: fraction, rfl, ?_⟩
    rw [List.append_assoc, List.cons_append, piece_of_isDigit hc, number_point hcs hfraction hrest,
      List.length_append, List.length_cons, Nat.add_assoc, Nat.add_comm 1]
  | @text quote s hquote hs => exact readAs_text hquote hs
  | boolean b =>
    rw [← classify_booleanText b]
    exact readAs_of_isWord (isWord_booleanText b) (h.head_of_word (isWord_booleanText b))
  | keyword k =>
    rw [← classify_keyword k]
    exact readAs_of_isWord (isWord_keyword k) (h.head_of_word (isWord_keyword k))
  | @name s c cs hs hc hcs hboolean hkeyword =>
    rw [← classify_of_ne hboolean hkeyword]
    have hword : IsWord s.toList := ⟨c, cs, hs, hc, hcs⟩
    exact readAs_of_isWord hword (h.head_of_word hword)
  | mark m => exact readAs_mark m fun d hd p => h.not_matches_concat hd p

/-- A longest match spells a token, or what starts there is no token. -/
theorem spells_or_not_token {w : List Char} (h : Longest w (w ++ rest)) :
    (∃ t, Spells t w) ∨
      ∃ c cs, w = c :: cs ∧ ∀ t more, piece c (cs ++ rest) ≠ .token t more := by
  obtain ⟨p, hw⟩ := h.matched
  cases hw with
  | digits hsome hw =>
    cases hvalue : Integer.ofDigits? false w with
    | some n => exact Or.inl ⟨_, .integer hsome hw (Integer.ofDigits?_eq_some_iff.1 hvalue)⟩
    | none =>
      have hrest := h.head_of_digits hsome hw
      obtain ⟨c, cs, rfl⟩ := List.exists_cons_of_ne_nil hsome
      obtain ⟨hc, hcs⟩ := List.forall_mem_cons.1 hw
      refine Or.inr ⟨c, cs, rfl, fun t more => ?_⟩
      rw [piece_of_isDigit hc, number_digits hcs hrest, hvalue]
      nofun
  | point hsome hwhole hfraction => exact Or.inl ⟨_, .float hsome hwhole hfraction⟩
  | @secondPoint whole fraction hsome hwhole hfraction =>
    obtain ⟨c, cs, rfl⟩ := List.exists_cons_of_ne_nil hsome
    obtain ⟨hc, hcs⟩ := List.forall_mem_cons.1 hwhole
    refine Or.inr ⟨c, cs ++ '.' :: (fraction ++ ['.']), rfl, fun t more => ?_⟩
    rw [List.append_assoc, List.cons_append, List.append_assoc, List.singleton_append,
      piece_of_isDigit hc, number_secondPoint hcs hfraction]
    nofun
  | @quoted quote body hquote hbody =>
    have hs : quote ∉ (String.ofList body).toList := by rwa [String.toList_ofList]
    have hspells := Spells.text hquote hs
    rw [String.toList_ofList] at hspells
    exact Or.inl ⟨_, hspells⟩
  | @unclosed quote body hquote hbody =>
    obtain rfl := h.rest_of_unclosed hquote hbody
    refine Or.inr ⟨quote, body, rfl, fun t more => ?_⟩
    rw [List.append_nil, piece_of_isQuote hquote, quotation_unclosed hbody]
    nofun
  | boolean b => exact Or.inl ⟨_, .boolean b⟩
  | keyword k => exact Or.inl ⟨_, .keyword k⟩
  | @name c cs hc hcs =>
    left
    have hlist : (String.ofList (c :: cs)).toList = c :: cs := String.toList_ofList
    -- a reserved word goes before the name
    by_cases hboolean : ∃ b, String.ofList (c :: cs) = booleanText b
    · obtain ⟨b, hb⟩ := hboolean
      rw [← hlist, hb]
      exact ⟨_, .boolean b⟩
    · by_cases hkeyword : ∃ k : Keyword, String.ofList (c :: cs) = k.text
      · obtain ⟨k, hk⟩ := hkeyword
        rw [← hlist, hk]
        exact ⟨_, .keyword k⟩
      · rw [← hlist]
        exact ⟨_, .name hlist hc hcs (not_exists.1 hboolean) (not_exists.1 hkeyword)⟩
  | mark m => exact Or.inl ⟨_, .mark m⟩
  | @comment body hbody =>
    refine Or.inr ⟨'/', '/' :: body, rfl, fun t more => ?_⟩
    rw [List.cons_append, piece_comment]
    nofun
  | blanks hsome hw =>
    obtain ⟨c, cs, rfl⟩ := List.exists_cons_of_ne_nil hsome
    refine Or.inr ⟨c, cs, rfl, fun t more => ?_⟩
    rw [piece_of_isGap (List.forall_mem_cons.1 hw).1]
    nofun

/-- A mark that a character is read as stands in the text. -/
theorem mark_starts {t : Token} {more : Nat} (h : mark c cs = .token t more) :
    ∃ m : Mark, m.text.toList <+: c :: cs := by
  unfold mark at h
  dsimp only at h
  split at h
  · exact ⟨.plus, cs, rfl⟩
  · exact ⟨.minus, cs, rfl⟩
  · exact ⟨.star, cs, rfl⟩
  · exact ⟨.slash, cs, rfl⟩
  · exact ⟨.caret, cs, rfl⟩
  · exact ⟨.openParen, cs, rfl⟩
  · exact ⟨.closeParen, cs, rfl⟩
  · exact ⟨.comma, cs, rfl⟩
  · exact ⟨.assign, cs, rfl⟩
  · exact ⟨.less, cs, rfl⟩
  · exact ⟨.greater, cs, rfl⟩
  · -- an exclamation mark is half of a mark
    split at h
    · next hequal =>
      obtain ⟨rest, rfl⟩ := List.head?_eq_some_iff.1 (beq_iff_eq.1 hequal)
      exact ⟨.notEqual, rest, rfl⟩
    · cases h
  · cases h

/-- Where a token is read, a pattern matches. -/
theorem matches_of_piece {t : Token} {more : Nat} (h : piece c cs = .token t more) :
    ∃ (p : Pattern) (v : List Char), p.Matches v ∧ v <+: c :: cs := by
  have hfirst : [c] <+: c :: cs := ⟨cs, rfl⟩
  unfold piece at h
  split at h
  · cases h
  split at h
  · cases h
  split at h
  · next hdigit =>
    exact ⟨.digits, [c], .digits (List.cons_ne_nil c []) (List.forall_mem_singleton.2 hdigit),
      hfirst⟩
  split at h
  · next hquote => exact ⟨.unclosed c, [c], .unclosed hquote List.not_mem_nil, hfirst⟩
  split at h
  · next hname => exact ⟨.name, [c], .name hname (List.forall_mem_nil _), hfirst⟩
  · obtain ⟨m, hm⟩ := mark_starts h
    exact ⟨.mark m, m.text.toList, .mark m, hm⟩

/-- **A token is read exactly where the longest match spells it.** -/
theorem piece_token_iff {t : Token} {more : Nat} :
    piece c cs = .token t more ↔
      ∃ w rest, c :: cs = w ++ rest ∧ w.length = more + 1 ∧ Spells t w ∧ Longest w (w ++ rest) := by
  constructor
  · intro h
    obtain ⟨p, v, hv, hstarts⟩ := matches_of_piece h
    obtain ⟨w, hlongest⟩ := Longest.exists_of_matches hv hstarts
    obtain ⟨rest, hrest⟩ := hlongest.starts
    rw [← hrest] at hlongest
    rcases spells_or_not_token hlongest with ⟨t', ht'⟩ | ⟨d, ds, rfl, hnot⟩
    · -- the longest match gives the token that it spells, so this is the one that was read
      obtain ⟨d, ds, rfl, hpiece⟩ := readAs_of_spells ht' hlongest
      obtain ⟨rfl, rfl⟩ := List.cons.inj hrest
      obtain ⟨rfl, rfl⟩ := Piece.token.inj (h.symm.trans hpiece)
      exact ⟨d :: ds, rest, rfl, rfl, ht', hlongest⟩
    · obtain ⟨rfl, rfl⟩ := List.cons.inj hrest
      exact absurd h (hnot t more)
  · rintro ⟨w, rest, hw, hlength, ht, hlongest⟩
    obtain ⟨d, ds, rfl, hpiece⟩ := readAs_of_spells ht hlongest
    obtain ⟨rfl, rfl⟩ := List.cons.inj hw
    refine hpiece.trans ?_
    rw [Nat.succ.inj hlength]

theorem number_ne_gap {more : Nat} : number c cs ≠ .gap more := by
  fun_cases number c cs <;> simp

theorem quotation_ne_gap {more : Nat} : quotation c cs ≠ .gap more := by
  fun_cases quotation c cs <;> simp

theorem mark_ne_gap {more : Nat} : mark c cs ≠ .gap more := by
  unfold mark
  generalize (cs.head? == some '=') = followed
  cases followed <;> split <;> simp

/-- A gap is a blank, or a comment up to the next line feed. -/
theorem gap_of_piece {more : Nat} (h : piece c cs = .gap more) :
    (isGap c = true ∧ more = 0) ∨
      ∃ body rest, c :: cs = '/' :: '/' :: (body ++ rest) ∧ '\n' ∉ body ∧
        (∀ d ∈ rest.head?, d = '\n') ∧ more = body.length + 1 := by
  -- the branches of the scanner, of which two give a gap
  unfold piece at h
  split at h
  · next hgap => exact Or.inl ⟨hgap, (Piece.gap.inj h).symm⟩
  split at h
  · next hslashes =>
    simp only [Bool.and_eq_true, beq_iff_eq] at hslashes
    obtain ⟨rfl, hslash⟩ := hslashes
    obtain ⟨after, rfl⟩ := List.head?_eq_some_iff.1 hslash
    refine Or.inr ⟨after.takeWhile (· != '\n'), after.dropWhile (· != '\n'), ?_, ?_, ?_, ?_⟩
    · rw [List.takeWhile_append_dropWhile]
    · intro hmem
      simpa using List.all_eq_true.1 List.all_takeWhile '\n' hmem
    · intro d hd
      simpa using head?_dropWhile hd
    · exact (Piece.gap.inj h).symm
  split at h
  · exact absurd h number_ne_gap
  split at h
  · exact absurd h quotation_ne_gap
  split at h
  · cases h
  · exact absurd h mark_ne_gap

/-- The characters of a piece are passed one after the other. -/
theorem scanFrom_skip (line : Nat) (rest : List Char) :
    ∀ (column : Nat) (passed : List Char),
      scanFrom line column passed.length (passed ++ rest) =
        scanFrom line (column + passed.length) 0 rest := by
  intro column passed
  induction passed generalizing column with
  | nil => rfl
  | cons c cs ih =>
    rw [List.length_cons, List.cons_append, scanFrom, ih, Nat.add_assoc, Nat.add_comm 1]

/-- A word that is read gives the first lexeme, and the walk goes on after it. -/
theorem scanFrom_readAs (line column : Nat) {w : List Char} {t : Token} (h : ReadAs w t rest) :
    scanFrom line column 0 (w ++ rest) =
      (scanFrom line (column + w.length) 0 rest).map (⟨t, line, column⟩ :: ·) := by
  obtain ⟨c, cs, rfl, hpiece⟩ := h
  rw [List.cons_append, scanFrom, hpiece]
  dsimp only
  rw [scanFrom_skip, List.length_cons, Nat.add_right_comm, Nat.add_assoc]
  cases scanFrom line (column + (cs.length + 1)) 0 rest <;> rfl

end Primer.Scanner
