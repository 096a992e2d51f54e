import Mathlib.Data.List.TakeWhile
import Primer.Native.Character
import Primer.Proofs.Integer

/-!
# Conversions and their formats

The texts that are converted to an integer are numerals between blanks, and which number a numeral
stands for is said without reading it (`Integer.Numeral`, `Integer.Denotes`). What is shown of an
integer is a numeral for it, so converting to a text and back gives the integer again. Characters
and their codes are converted both ways as well (`Native.conversions_inverse`).
-/

set_option autoImplicit false

namespace Primer

/-! ## White space around a text -/

namespace Text

variable {before cs after : List Char}

/-- Blanks around a text are dropped with those of the text. -/
theorem trim_append (hbefore : ∀ c ∈ before, isBlank c = true)
    (hafter : ∀ c ∈ after, isBlank c = true) : trim (before ++ cs ++ after) = trim cs := by
  have hstart : (before ++ cs ++ after).dropWhile isBlank = (cs ++ after).dropWhile isBlank := by
    rw [List.append_assoc, List.dropWhile_append_of_pos hbefore]
  unfold trim
  rw [hstart, List.dropWhile_append]
  split
  · next hnil =>
    rw [List.isEmpty_iff] at hnil
    rw [hnil, List.dropWhile_eq_nil_iff.2 hafter]
  · rw [List.reverse_append, List.dropWhile_append_of_pos (by simpa using hafter)]

/-- A text is what is left of it between blanks. -/
theorem exists_trim (cs : List Char) :
    ∃ before after, cs = before ++ trim cs ++ after ∧ ∀ c ∈ before ++ after, isBlank c = true := by
  refine ⟨cs.takeWhile isBlank,
    ((cs.dropWhile isBlank).reverse.takeWhile isBlank).reverse, ?_, ?_⟩
  · rw [trim, List.append_assoc, ← List.reverse_append, List.takeWhile_append_dropWhile,
      List.reverse_reverse, List.takeWhile_append_dropWhile]
  · intro c hc
    rw [List.mem_append, List.mem_reverse] at hc
    rcases hc with hc | hc
    · exact List.mem_takeWhile_imp hc
    · exact List.mem_takeWhile_imp hc

theorem trim_of_not_blank (h : ∀ c ∈ cs, isBlank c = false) : trim cs = cs := by
  have hstays : ∀ ds : List Char, (∀ c ∈ ds, isBlank c = false) → ds.dropWhile isBlank = ds := by
    intro ds hds
    cases ds with
    | nil => rfl
    | cons d ds => exact List.dropWhile_cons_of_neg (by simp [hds])
  rw [trim, hstays cs h, hstays cs.reverse (by simpa using h), List.reverse_reverse]

theorem isBlank_of_isDigit {c : Char} (h : c.isDigit = true) : isBlank c = false := by
  have hdigit : 48 ≤ c.toNat ∧ c.toNat ≤ 57 := by
    simpa [Char.isDigit, UInt32.le_iff_toNat_le] using h
  simp [isBlank, inRanges, blankRanges]
  omega

end Text

/-! ## Numerals -/

namespace Integer

/-- At least one decimal digit. -/
def Digits (ds : List Char) : Prop := ds ≠ [] ∧ ∀ d ∈ ds, d.isDigit = true

/-- The number that an optional sign and digits stand for. -/
inductive Numeral : List Char → Int → Prop where
  | unsigned {ds : List Char} (h : Digits ds) : Numeral ds (Nat.ofDigitChars 10 ds 0)
  | plus {ds : List Char} (h : Digits ds) : Numeral ('+' :: ds) (Nat.ofDigitChars 10 ds 0)
  | minus {ds : List Char} (h : Digits ds) : Numeral ('-' :: ds) (-Nat.ofDigitChars 10 ds 0)

/-- A text denotes a number if it is a numeral for it with any blanks around it. -/
def Denotes (s : String) (n : Int) : Prop :=
  ∃ before cs after, s.toList = before ++ cs ++ after ∧
    (∀ c ∈ before ++ after, Text.isBlank c = true) ∧ Numeral cs n

variable {cs ds : List Char} {s : String} {n m : Int}

theorem Numeral.not_blank (h : Numeral cs n) : ∀ c ∈ cs, Text.isBlank c = false := by
  have hdigits {ds : List Char} (hds : Digits ds) : ∀ c ∈ ds, Text.isBlank c = false :=
    fun c hc => Text.isBlank_of_isDigit (hds.2 c hc)
  cases h with
  | unsigned hds => exact hdigits hds
  | plus hds => exact List.forall_mem_cons.2 ⟨by decide, hdigits hds⟩
  | minus hds => exact List.forall_mem_cons.2 ⟨by decide, hdigits hds⟩

/-- A text denotes an integer if it is a numeral of it between blanks. -/
theorem denotes_iff : Denotes s n ↔ Numeral (Text.trim s.toList) n := by
  constructor
  · rintro ⟨before, cs, after, hs, hblank, hnumeral⟩
    rw [List.forall_mem_append] at hblank
    rwa [hs, Text.trim_append hblank.1 hblank.2, Text.trim_of_not_blank hnumeral.not_blank]
  · intro hnumeral
    obtain ⟨before, after, hs, hblank⟩ := Text.exists_trim s.toList
    exact ⟨before, _, after, hs, hblank, hnumeral⟩

/-! ## Reading numerals -/

theorem splitSign_digits (h : Digits ds) : Decimal.splitSign ds = (false, ds) := by
  unfold Decimal.splitSign
  split
  · next cs => cases h.2 '-' List.mem_cons_self
  · next cs => cases h.2 '+' List.mem_cons_self
  · rfl

/-- What is read once the sign is split off. -/
def afterSign? (negative : Bool) (ds : List Char) : Option Int64 :=
  if ds.isEmpty || !ds.all Char.isDigit then none else ofDigits? negative ds

/-- The digits after a sign are read if their number fits, and to this number. -/
theorem afterSign?_eq_some_iff {negative : Bool} {k : Int64} :
    afterSign? negative ds = some k ↔
      Digits ds ∧ k.toInt =
        if negative then -(Nat.ofDigitChars 10 ds 0 : Int) else Nat.ofDigitChars 10 ds 0 := by
  have hguard : (ds.isEmpty || !ds.all Char.isDigit) = true ↔ ¬Digits ds := by
    simp [Digits, -not_and, Classical.not_and_iff_not_or_not]
  unfold afterSign?
  split
  · next h => exact iff_of_false nofun fun hread => hguard.1 h hread.1
  · next h =>
    rw [hguard, not_not] at h
    rw [ofDigits?_eq, fit?_eq_some_iff, and_iff_right h]

/-- Exactly the numerals are read, as what they stand for. -/
theorem read?_eq_some_iff {k : Int64} : read? cs = some k ↔ Numeral cs k.toInt := by
  have hread : read? cs = afterSign? (Decimal.splitSign cs).1 (Decimal.splitSign cs).2 := rfl
  rw [hread]
  constructor
  · intro h
    obtain ⟨hds, hvalue⟩ := afterSign?_eq_some_iff.1 h
    rw [hvalue]
    clear hvalue
    revert hds
    unfold Decimal.splitSign
    split
    · exact .minus
    · exact .plus
    · exact .unsigned
  · intro h
    generalize hk : k.toInt = n at h
    cases h with
    | unsigned hds =>
      -- a first digit is not taken for a sign
      rw [splitSign_digits hds, afterSign?_eq_some_iff]
      exact ⟨hds, hk⟩
    | plus hds => exact afterSign?_eq_some_iff.2 ⟨hds, hk⟩
    | minus hds => exact afterSign?_eq_some_iff.2 ⟨hds, hk⟩

/-! ## What numerals stand for -/

/-- A numeral has one number. -/
theorem Numeral.unique (h : Numeral cs n) (h' : Numeral cs m) : n = m := by
  -- a sign is no digit, so no text is a numeral in two ways
  cases h with
  | unsigned hds =>
    cases h' with
    | unsigned => rfl
    | plus => cases hds.2 '+' List.mem_cons_self
    | minus => cases hds.2 '-' List.mem_cons_self
  | plus =>
    cases h' with
    | unsigned hds => cases hds.2 '+' List.mem_cons_self
    | plus => rfl
  | minus =>
    cases h' with
    | unsigned hds => cases hds.2 '-' List.mem_cons_self
    | minus => rfl

theorem Numeral.denotes (h : Numeral s.toList n) : Denotes s n :=
  ⟨[], s.toList, [], by rw [List.nil_append, List.append_nil], nofun, h⟩

/-- A text that is a numeral denotes its number only. -/
theorem denotes_iff_eq (h : Numeral s.toList m) : Denotes s n ↔ n = m := by
  constructor
  · intro hn
    rw [denotes_iff, Text.trim_of_not_blank h.not_blank] at hn
    exact hn.unique h
  · rintro rfl
    exact h.denotes

/-- What is shown of an integer is a numeral for it. -/
theorem numeral_text (n : Int64) : Numeral (text n).toList n.toInt := by
  have hdigits : Digits (Nat.toDigits 10 n.toInt.natAbs) :=
    ⟨Nat.toDigits_ne_nil, fun c hc => Nat.isDigit_of_mem_toDigits (by decide) (by decide) hc⟩
  unfold text
  split
  · next hn =>
    have hnumeral := Numeral.minus hdigits
    rw [Nat.ofDigitChars_ten_toDigits] at hnumeral
    have hvalue : -(n.toInt.natAbs : Int) = n.toInt := by omega
    rw [hvalue] at hnumeral
    rwa [String.toList_append, Nat.toList_repr]
  · next hn =>
    have hnumeral := Numeral.unsigned hdigits
    rw [Nat.ofDigitChars_ten_toDigits] at hnumeral
    have hvalue : (n.toInt.natAbs : Int) = n.toInt := by omega
    rw [hvalue] at hnumeral
    rwa [Nat.toList_repr]

/-- Leading zeros do not count. -/
theorem ofDigitChars_zeros {zeros : List Char} (h : ∀ c ∈ zeros, c = '0') :
    Nat.ofDigitChars 10 (zeros ++ ds) 0 = Nat.ofDigitChars 10 ds 0 := by
  induction zeros with
  | nil => rfl
  | cons c zeros ih =>
    obtain ⟨rfl, hzeros⟩ := List.forall_mem_cons.1 h
    rw [List.cons_append, Nat.ofDigitChars_cons]
    exact ih hzeros

/-- Zeros in front of digits do not change what they stand for. -/
theorem digits_zeros {zeros : List Char} (h : ∀ c ∈ zeros, c = '0') (hds : Digits ds) :
    Digits (zeros ++ ds) := by
  refine ⟨by simp [hds.1], List.forall_mem_append.2 ⟨fun c hc => ?_, hds.2⟩⟩
  rw [h c hc]
  rfl

/-- A sign changes what digits stand for in the same way for all digits. -/
theorem numeral_signed {sign : String} (h : sign ∈ ["", "+", "-"]) :
    ∃ f : Int → Int, ∀ ds : List Char, Digits ds →
      Numeral (sign.toList ++ ds) (f (Nat.ofDigitChars 10 ds 0)) := by
  simp only [List.mem_cons, List.not_mem_nil, or_false] at h
  rcases h with rfl | rfl | rfl
  · exact ⟨id, fun ds => .unsigned⟩
  · exact ⟨id, fun ds => .plus⟩
  · exact ⟨Neg.neg, fun ds => .minus⟩

end Integer

namespace Native

variable {pos : Position}

/-- A text is converted to an integer exactly if it denotes one in range. -/
theorem toInteger_text_eq_ok_iff {s : String} {v : Value} :
    toInteger [.text s] pos = .ok v ↔ ∃ n : Int64, v = .integer n ∧ Integer.Denotes s n.toInt := by
  have hread : toInteger [.text s] pos =
      converted (.text s) .integer pos ((Integer.read? (Text.trim s.toList)).map .integer) := rfl
  simp only [hread, Integer.denotes_iff, ← Integer.read?_eq_some_iff]
  cases Integer.read? (Text.trim s.toList) with
  | some k => simp [converted, eq_comm]
  | none => simp [converted]

/-- Every other text is refused by what is shown of it. -/
theorem toInteger_text_of_not {s : String} (h : ∀ n : Int64, ¬Integer.Denotes s n.toInt) :
    toInteger [.text s] pos = .error ⟨.inconvertible ("\"" ++ s ++ "\"") .integer, pos⟩ := by
  have hread : Integer.read? (Text.trim s.toList) = none := by
    rw [Option.eq_none_iff_forall_ne_some]
    intro k hk
    exact h k (Integer.denotes_iff.2 (Integer.read?_eq_some_iff.1 hk))
  change converted (.text s) .integer pos ((Integer.read? (Text.trim s.toList)).map .integer) = _
  rw [hread]
  rfl

/-- What two texts denote decides what becomes of them. -/
theorem toInteger_text_congr {s t : String} {v : Value}
    (h : ∀ n : Int, Integer.Denotes s n ↔ Integer.Denotes t n) :
    toInteger [.text s] pos = .ok v ↔ toInteger [.text t] pos = .ok v := by
  simp only [toInteger_text_eq_ok_iff, h]

/-- What is shown of an integer is converted back to it. -/
theorem toInteger_toText (n : Int64) (pos : Position) :
    ∃ s : String, toText [.integer n] pos = .ok (.text s) ∧
      toInteger [.text s] pos = .ok (.integer n) := by
  refine ⟨Integer.text n, rfl, ?_⟩
  exact toInteger_text_eq_ok_iff.2 ⟨n, rfl, (Integer.numeral_text n).denotes⟩

/-- Blanks around a text make no difference. -/
theorem toInteger_text_blanks {before s after : String} {v : Value}
    (h : ∀ c ∈ before.toList ++ after.toList, Text.isBlank c = true) :
    toInteger [.text (before ++ s ++ after)] pos = .ok v ↔ toInteger [.text s] pos = .ok v := by
  apply toInteger_text_congr
  intro n
  rw [List.forall_mem_append] at h
  rw [Integer.denotes_iff, Integer.denotes_iff, String.toList_append, String.toList_append,
    Text.trim_append h.1 h.2]

/-- Zeros between the sign and the digits make no difference. -/
theorem toInteger_text_zeros {sign zeros digits : String} {v : Value}
    (hsign : sign ∈ ["", "+", "-"]) (hzeros : ∀ c ∈ zeros.toList, c = '0')
    (hdigits : Integer.Digits digits.toList) :
    toInteger [.text (sign ++ zeros ++ digits)] pos = .ok v ↔
      toInteger [.text (sign ++ digits)] pos = .ok v := by
  apply toInteger_text_congr
  intro n
  obtain ⟨f, hf⟩ := Integer.numeral_signed hsign
  have hlong := hf _ (Integer.digits_zeros hzeros hdigits)
  have hshort := hf _ hdigits
  rw [Integer.ofDigitChars_zeros hzeros, ← List.append_assoc, ← String.toList_append,
    ← String.toList_append] at hlong
  rw [← String.toList_append] at hshort
  rw [Integer.denotes_iff_eq hlong, Integer.denotes_iff_eq hshort]

/-- A plus in front of the digits makes no difference. -/
theorem toInteger_text_plus {digits : String} {v : Value}
    (hdigits : Integer.Digits digits.toList) :
    toInteger [.text ("+" ++ digits)] pos = .ok v ↔ toInteger [.text digits] pos = .ok v := by
  apply toInteger_text_congr
  intro n
  have hplus : Integer.Numeral ("+".toList ++ digits.toList)
      (Nat.ofDigitChars 10 digits.toList 0) := .plus hdigits
  rw [← String.toList_append] at hplus
  rw [Integer.denotes_iff_eq hplus, Integer.denotes_iff_eq (.unsigned hdigits)]

end Native

/-! ## Characters and codes -/

/-- The numbers that are codes of characters: the code points without the surrogates. -/
def Integer.IsScalar (n : Int) : Prop := 0 ≤ n ∧ n < 0xD800 ∨ 0xE000 ≤ n ∧ n ≤ 0x10FFFF

instance : DecidablePred Integer.IsScalar := fun _ => inferInstanceAs (Decidable (_ ∧ _ ∨ _ ∧ _))

theorem Integer.isScalar_toNat (c : Char) : IsScalar c.toNat := by
  have hvalid : c.toNat < 0xd800 ∨ 0xdfff < c.toNat ∧ c.toNat < 0x110000 := c.valid
  unfold IsScalar
  omega

/-- The character of a code is the one that has it. -/
theorem Integer.toChar?_eq_some_iff {n : Int64} {c : Char} :
    toChar? n = some c ↔ n.toInt = c.toNat := by
  unfold toChar?
  dsimp only
  split
  · next h =>
    have hcode : (Char.ofNat n.toInt.toNat).toNat = n.toInt.toNat := by
      rw [Char.ofNat, dif_pos h.2]
      rfl
    rw [Option.some.injEq, ← Char.toNat_inj, hcode]
    omega
  · next h =>
    refine iff_of_false nofun fun hn => h ?_
    rw [hn]
    exact ⟨Int.natCast_nonneg _, c.valid⟩

/-- A number has no character exactly if it is no scalar value. -/
theorem Integer.toChar?_eq_none_iff {n : Int64} : toChar? n = none ↔ ¬IsScalar n.toInt := by
  have hvalid : IsScalar n.toInt ↔ 0 ≤ n.toInt ∧
      (n.toInt.toNat < 0xd800 ∨ 0xdfff < n.toInt.toNat ∧ n.toInt.toNat < 0x110000) := by
    unfold IsScalar
    omega
  rw [hvalid]
  unfold toChar?
  dsimp only
  split
  · next h => exact iff_of_false nofun (not_not_intro h)
  · next h => exact iff_of_true rfl h

namespace Native

variable {pos : Position}

/-- Every character has a code, of which it is the character. -/
theorem codeOf_char (c : Char) (pos : Position) : ∃ n : Int64, Integer.toChar? n = some c ∧
    codeOf [.text (String.ofList [c])] pos = .ok (.integer n) := by
  refine ⟨Int64.ofNat c.toNat, ?_, ?_⟩
  · rw [Integer.toChar?_eq_some_iff]
    have hscalar := Integer.isScalar_toNat c
    unfold Integer.IsScalar at hscalar
    exact Int64.toInt_ofNat_of_lt (by omega)
  · simp only [codeOf, single, bind, Except.bind, String.toList_ofList]

theorem ofCode_of_toChar? {n : Int64} {c : Char} (h : Integer.toChar? n = some c)
    (pos : Position) :
    ofCode [.integer n] pos = .ok (.text (String.ofList [c])) := by
  simp only [ofCode, single, bind, Except.bind, h]

/-- A code that is no scalar value is refused. -/
theorem ofCode_of_not {n : Int64} (h : ¬Integer.IsScalar n.toInt) :
    ofCode [.integer n] pos = .error ⟨.badCharacterCode n, pos⟩ := by
  simp only [ofCode, single, bind, Except.bind, Integer.toChar?_eq_none_iff.2 h]

/-- Only a text of one character has a code. -/
theorem codeOf_of_not {s : String} (h : s.length ≠ 1) :
    codeOf [.text s] pos = .error ⟨.notSingleCharacter s.length, pos⟩ := by
  rw [← String.length_toList] at *
  simp only [codeOf, single, bind, Except.bind]
  split
  · next c hs =>
    rw [hs] at h
    exact absurd rfl h
  · rfl

/-- The text of a code has this code. -/
theorem codeOf_ofCode {n : Int64} (hn : Integer.IsScalar n.toInt) (pos : Position) :
    ∃ s : String, ofCode [.integer n] pos = .ok (.text s) ∧
      codeOf [.text s] pos = .ok (.integer n) := by
  cases hchar : Integer.toChar? n with
  | none => exact absurd hn (Integer.toChar?_eq_none_iff.1 hchar)
  | some c =>
    obtain ⟨k, hk, hcode⟩ := codeOf_char c pos
    have hsame : k = n := by
      rw [← Int64.toInt_inj, Integer.toChar?_eq_some_iff.1 hk,
        Integer.toChar?_eq_some_iff.1 hchar]
    rw [hsame] at hcode
    exact ⟨_, ofCode_of_toChar? hchar pos, hcode⟩

/-- The code of a text has this text. -/
theorem ofCode_codeOf {s : String} (hs : s.length = 1) (pos : Position) :
    ∃ n : Int64, codeOf [.text s] pos = .ok (.integer n) ∧
      ofCode [.integer n] pos = .ok (.text s) := by
  rw [← String.length_toList, List.length_eq_one_iff] at hs
  obtain ⟨c, hc⟩ := hs
  obtain ⟨n, hn, hcode⟩ := codeOf_char c pos
  have hback := ofCode_of_toChar? hn pos
  rw [← hc, String.ofList_toList] at hcode hback
  exact ⟨n, hcode, hback⟩

/-- **Conversions are inverse to each other and take exactly their formats.** What is shown of an
integer is converted back to it. A text is converted to an integer exactly if it denotes one, and
refused otherwise; blanks around it, and zeros or a plus in front of its digits, make no difference.
Exactly the Unicode scalar values are codes of characters, and exactly the texts of one character
have a code; the character of a code has this code, and the text of a code is that of its
character. -/
theorem conversions_inverse (pos : Position) :
    (∀ n : Int64, ∃ s : String, toText [.integer n] pos = .ok (.text s) ∧
      toInteger [.text s] pos = .ok (.integer n)) ∧
    (∀ s : String,
      (∀ n : Int64, toInteger [.text s] pos = .ok (.integer n) ↔ Integer.Denotes s n.toInt) ∧
      ((∀ n : Int64, ¬Integer.Denotes s n.toInt) →
        toInteger [.text s] pos =
          .error ⟨.inconvertible ("\"" ++ s ++ "\"") .integer, pos⟩)) ∧
    (∀ (before s after : String) (v : Value),
      (∀ c ∈ before.toList ++ after.toList, Text.isBlank c = true) →
      (toInteger [.text (before ++ s ++ after)] pos = .ok v ↔ toInteger [.text s] pos = .ok v)) ∧
    (∀ (sign zeros digits : String) (v : Value), sign ∈ ["", "+", "-"] →
      (∀ c ∈ zeros.toList, c = '0') → Integer.Digits digits.toList →
      (toInteger [.text (sign ++ zeros ++ digits)] pos = .ok v ↔
        toInteger [.text (sign ++ digits)] pos = .ok v)) ∧
    (∀ (digits : String) (v : Value), Integer.Digits digits.toList →
      (toInteger [.text ("+" ++ digits)] pos = .ok v ↔ toInteger [.text digits] pos = .ok v)) ∧
    (∀ n : Int64,
      (Integer.IsScalar n.toInt → ∃ s : String, ofCode [.integer n] pos = .ok (.text s) ∧
        codeOf [.text s] pos = .ok (.integer n)) ∧
      (¬Integer.IsScalar n.toInt →
        ofCode [.integer n] pos = .error ⟨.badCharacterCode n, pos⟩)) ∧
    (∀ s : String,
      (s.length = 1 → ∃ n : Int64, codeOf [.text s] pos = .ok (.integer n) ∧
        ofCode [.integer n] pos = .ok (.text s)) ∧
      (s.length ≠ 1 → codeOf [.text s] pos = .error ⟨.notSingleCharacter s.length, pos⟩)) ∧
    ∀ (s : String) (n : Int64) (k : Nat),
      (Cause.inconvertible s .integer).family = .evaluation ∧
        (Cause.badCharacterCode n).family = .evaluation ∧
        (Cause.notSingleCharacter k).family = .evaluation := by
  refine ⟨fun n => toInteger_toText n pos, fun s => ⟨fun n => ?_, toInteger_text_of_not⟩,
    fun _ _ _ _ => toInteger_text_blanks, fun _ _ _ _ => toInteger_text_zeros,
    fun _ _ => toInteger_text_plus, fun n => ⟨fun hn => codeOf_ofCode hn pos, ofCode_of_not⟩,
    fun s => ⟨fun hs => ofCode_codeOf hs pos, codeOf_of_not⟩, fun _ _ _ => ⟨rfl, rfl, rfl⟩⟩
  rw [toInteger_text_eq_ok_iff]
  constructor
  · rintro ⟨k, ⟨⟩, hk⟩
    exact hk
  · intro hn
    exact ⟨n, rfl, hn⟩

/-- The least integer between blanks, with zeros in front of its digits; the last code in front of
the surrogates; and a text of one character. -/
theorem conversions_inverse_least :
    (∀ c ∈ "\t ".toList ++ "\n".toList, Text.isBlank c = true) ∧
      toInteger [.text "\t -009223372036854775808\n"] ⟨0, 0⟩ = .ok (.integer Int64.minValue) ∧
      Integer.IsScalar (55295 : Int64).toInt ∧ ¬Integer.IsScalar (55296 : Int64).toInt ∧
      (∃ s, ofCode [.integer 55295] ⟨0, 0⟩ = .ok (.text s)) ∧
      ofCode [.integer 55296] ⟨0, 0⟩ = .error ⟨.badCharacterCode 55296, ⟨0, 0⟩⟩ ∧
      "é".length = 1 ∧ ∃ n, codeOf [.text "é"] ⟨0, 0⟩ = .ok (.integer n) := by
  obtain ⟨-, hdenotes, hblanks, hzeros, -, hcodes, htexts, -⟩ := conversions_inverse ⟨0, 0⟩
  have hblank : ∀ c ∈ "\t ".toList ++ "\n".toList, Text.isBlank c = true :=
    List.all_eq_true.1 (by decide)
  have hdigits : Integer.Digits "9223372036854775808".toList :=
    ⟨by decide, List.all_eq_true.1 (by decide)⟩
  have hleast : Integer.Denotes ("-" ++ "9223372036854775808") Int64.minValue.toInt :=
    ⟨[], _, [], rfl, nofun, .minus hdigits⟩
  have hvalue := ((hdenotes _).1 Int64.minValue).2 hleast
  have hlong := (hzeros "-" "00" _ _ (by simp) (by simp) hdigits).2 hvalue
  have hread := (hblanks "\t " _ "\n" _ hblank).2 hlong
  have hscalar : Integer.IsScalar (55295 : Int64).toInt := by decide
  have hsurrogate : ¬Integer.IsScalar (55296 : Int64).toInt := by decide
  obtain ⟨s, hs, -⟩ := (hcodes 55295).1 hscalar
  obtain ⟨n, hn, -⟩ := (htexts "é").1 rfl
  exact ⟨hblank, hread, hscalar, hsurrogate, ⟨s, hs⟩, (hcodes 55296).2 hsurrogate, rfl, n, hn⟩

end Native

end Primer
