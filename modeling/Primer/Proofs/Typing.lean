import Primer.Proofs.Exactness.Power
import Primer.Proofs.Rounding

/-!
# Operators and the kinds of their operands

Whether an operator refuses its operands is a matter of their kinds alone
(`BinaryOp.Accepts`). Operands of accepted kinds can still have no result, for three reasons that
depend on their values (`BinaryOp.Fails`); otherwise the kind of the result follows from the
operands (`BinaryOp.Gives`). The rules differ in how they tell operands apart, but all of them see
two values in one of five ways (`Value.Meeting`), and what each rule does is said once for each way.
-/

set_option autoImplicit false

namespace Primer

/-! ## Pairs of operands -/

namespace Value

/-- Whether a number is zero; a double may be either of the two zeros. -/
def IsZero : Value → Prop
  | integer n => n = 0
  | float x => (x == 0.0) = true
  | _ => False

/-- The ways in which the rules of operators see two values. -/
inductive Meeting : Value → Value → Prop where
  | integers (a b : Int64) : Meeting (integer a) (integer b)
  | doubles {l r : Value} {x y : Float} (hl : l.toFloat? = some x) (hr : r.toFloat? = some y)
      (hdouble : l.kind = .float ∨ r.kind = .float) : Meeting l r
  | texts (s t : String) : Meeting (text s) (text t)
  | booleans (a b : Bool) : Meeting (boolean a) (boolean b)
  | strangers {l r : Value} (hnumber : l.toFloat? = none ∨ r.toFloat? = none)
      (hkind : l.kind = r.kind → l.kind = .subroutine) : Meeting l r

/-- Any two operands meet in one of these ways. -/
theorem meeting (l r : Value) : Meeting l r := by
  cases l with
  | integer a =>
    cases r with
    | integer b => exact .integers a b
    | float y => exact .doubles rfl rfl (Or.inr rfl)
    | _ => exact .strangers (Or.inr rfl) nofun
  | float x =>
    cases r with
    | integer b => exact .doubles rfl rfl (Or.inl rfl)
    | float y => exact .doubles rfl rfl (Or.inl rfl)
    | _ => exact .strangers (Or.inr rfl) nofun
  | boolean a =>
    cases r with
    | boolean b => exact .booleans a b
    | _ => exact .strangers (Or.inl rfl) nofun
  | text s =>
    cases r with
    | text t => exact .texts s t
    | _ => exact .strangers (Or.inl rfl) nofun
  | callable c => exact .strangers (Or.inl rfl) fun _ => rfl

variable {l r v : Value} {x y : Float}

theorem isNumeric_of_toFloat? (h : v.toFloat? = some x) : v.kind.isNumeric = true := by
  cases v with
  | integer n => rfl
  | float x => rfl
  | _ => cases h

theorem not_isNumeric_of_toFloat? (h : v.toFloat? = none) : ¬v.kind.isNumeric := by
  cases v with
  | integer n => cases h
  | float x => cases h
  | _ => exact Bool.false_ne_true

theorem not_doubles (h : l.toFloat? = none ∨ r.toFloat? = none) :
    ¬(l.toFloat? = some x ∧ r.toFloat? = some y) := by
  rintro ⟨hl, hr⟩
  rw [hl, hr] at h
  rcases h with h | h <;> cases h

theorem not_numbers (h : l.toFloat? = none ∨ r.toFloat? = none) :
    ¬(l.kind.isNumeric ∧ r.kind.isNumeric) := by
  rintro ⟨hl, hr⟩
  rcases h with h | h
  · exact not_isNumeric_of_toFloat? h hl
  · exact not_isNumeric_of_toFloat? h hr

theorem not_both {k : Kind} (h : l.kind = r.kind → l.kind = .subroutine) (hk : k ≠ .subroutine) :
    ¬(l.kind = k ∧ r.kind = k) := by
  rintro ⟨hl, hr⟩
  exact hk (hl.symm.trans (h (hl.trans hr.symm)))

theorem IsZero.isNumeric (h : v.IsZero) : v.kind.isNumeric = true := by
  cases v with
  | integer n => rfl
  | float x => rfl
  | _ => cases h

/-- A number is zero exactly if its double is. -/
theorem isZero_iff (h : v.toFloat? = some x) : v.IsZero ↔ (x == 0.0) = true := by
  cases v with
  | integer n =>
    obtain rfl := Option.some.inj h
    exact (Integer.toFloat_beq_zero_iff n).symm
  | float x =>
    obtain rfl := Option.some.inj h
    exact Iff.rfl
  | _ => cases h

/-- What is no truth value is refused by name. -/
theorem toBoolean_cases (v : Value) (subject : String) (pos : Position) :
    (∃ b : Bool, v = boolean b) ∨
      v.kind ≠ .boolean ∧
        v.toBoolean subject pos = .error ⟨.wrongKind subject .boolean v.kind, pos⟩ := by
  cases v with
  | boolean b => exact Or.inl ⟨b, rfl⟩
  | _ => exact Or.inr ⟨nofun, rfl⟩

end Value

namespace BinaryOp

/-! ## Accepted kinds, failures and results -/

/-- Whether an operator takes operands of these kinds: arithmetic takes two numbers, addition also
two texts; comparisons take two numbers or two texts, and those for equality also two truth values;
logic takes two truth values. -/
def Accepts (op : BinaryOp) (left right : Kind) : Prop :=
  match op with
  | .add => left.isNumeric ∧ right.isNumeric ∨ left = .text ∧ right = .text
  | .subtract | .multiply | .divide | .modulo | .quotient | .power =>
    left.isNumeric ∧ right.isNumeric
  | .compare c =>
    left.isNumeric ∧ right.isNumeric ∨ left = .text ∧ right = .text ∨
      left = .boolean ∧ right = .boolean ∧ (c = .equal ∨ c = .notEqual)
  | .conj | .disj => left = .boolean ∧ right = .boolean

instance (op : BinaryOp) (left right : Kind) : Decidable (op.Accepts left right) :=
  match op with
  | .add => inferInstanceAs (Decidable (_ ∧ _ ∨ _ ∧ _))
  | .subtract | .multiply | .divide | .modulo | .quotient | .power =>
    inferInstanceAs (Decidable (_ ∧ _))
  | .compare _ => inferInstanceAs (Decidable (_ ∧ _ ∨ _ ∧ _ ∨ _ ∧ _ ∧ (_ ∨ _)))
  | .conj | .disj => inferInstanceAs (Decidable (_ ∧ _))

/-- Whether an operator computes with numbers. -/
def isArithmetic : BinaryOp → Bool
  | .add | .subtract | .multiply | .divide | .modulo | .quotient | .power => true
  | .compare _ | .conj | .disj => false

/-- The integer that an operator should give on two integers, if there is one. -/
def integerResult? (op : BinaryOp) (a b : Int) : Option Int :=
  if op.isDivision ∧ b = 0 then none
  else
    match op with
    | .add => some (a + b)
    | .subtract => some (a - b)
    | .multiply => some (a * b)
    | .divide => if b ∣ a then some (a.tdiv b) else none
    | .modulo => some (a.tmod b)
    | .quotient => some ⌊(a : ℚ) / b⌋
    | .power => if 0 ≤ b then some (a ^ b.toNat) else none
    | .compare _ | .conj | .disj => none

/-- The reasons why an operator has no result on operands of accepted kinds. -/
inductive Fails : BinaryOp → Value → Value → Cause → Prop where
  | zeroDivisor {op : BinaryOp} {l r : Value} (hop : op.isDivision) (hl : l.isNumeric)
      (hr : r.IsZero) : Fails op l r op.zeroDivisor
  | overflow {op : BinaryOp} {a b : Int64} {n : Int}
      (hresult : op.integerResult? a.toInt b.toInt = some n) (hrange : ¬Integer.InRange n) :
      Fails op (.integer a) (.integer b) (.overflow op a b)
  | noRealPower {l r : Value} {x y : Float} (hl : l.toFloat? = some x) (hr : r.toFloat? = some y)
      (hfraction : ∀ b e : Int64, l = .integer b → r = .integer e → e.toInt < 0)
      (hfinite : (Float.pow x y).isFinite = false) :
      Fails .power l r (.noRealPower l.shown r.shown)

/-- The kinds that the result of an operator can have. -/
inductive Gives : BinaryOp → Value → Value → Kind → Prop where
  | truth {op : BinaryOp} {l r : Value} (hop : op.isArithmetic = false) : Gives op l r .boolean
  | joined {s t : String} : Gives .add (.text s) (.text t) .text
  | double {op : BinaryOp} {l r : Value} (hop : op.isArithmetic) (hl : l.isNumeric)
      (hr : r.isNumeric) (hdouble : l.kind = .float ∨ r.kind = .float) : Gives op l r .float
  | whole {op : BinaryOp} {a b : Int64}
      (hop : op ∈ [add, subtract, multiply, modulo, quotient] ∨ op = power ∧ 0 ≤ b.toInt) :
      Gives op (.integer a) (.integer b) .integer
  | fraction {op : BinaryOp} {a b : Int64} {k : Kind}
      (hop : op = divide ∨ op = power ∧ b.toInt < 0) (hk : k = .integer ∨ k = .float) :
      Gives op (.integer a) (.integer b) k

variable {op : BinaryOp} {l r : Value} {pos : Position} {cause : Cause}

theorem arithmetic_of_isDivision (hop : op.isDivision) : op.isArithmetic ∧ op ≠ power := by
  cases op with
  | divide => exact ⟨rfl, nofun⟩
  | modulo => exact ⟨rfl, nofun⟩
  | quotient => exact ⟨rfl, nofun⟩
  | _ => cases hop

/-- Operands of the right kinds fail in evaluation only. -/
theorem Fails.family (h : op.Fails l r cause) : cause.family = .evaluation := by
  cases h with
  | zeroDivisor => cases op <;> rfl
  | overflow => rfl
  | noRealPower => rfl

/-- Only arithmetic on numbers fails. -/
theorem Fails.numbers (h : op.Fails l r cause) :
    op.isArithmetic ∧ l.isNumeric ∧ r.isNumeric := by
  cases h with
  | zeroDivisor hop hl hr =>
    exact ⟨(arithmetic_of_isDivision hop).1, hl, hr.isNumeric⟩
  | overflow hresult =>
    refine ⟨?_, rfl, rfl⟩
    cases op <;> first | rfl | cases hresult
  | noRealPower hl hr => exact ⟨rfl, Value.isNumeric_of_toFloat? hl, Value.isNumeric_of_toFloat? hr⟩

/-- Arithmetic takes numbers, and a sum takes texts too. -/
theorem accepts_arithmetic_iff {left right : Kind} (hop : op.isArithmetic) :
    op.Accepts left right ↔
      left.isNumeric ∧ right.isNumeric ∨ op = add ∧ left = .text ∧ right = .text := by
  cases op with
  | compare c => cases hop
  | conj => cases hop
  | disj => cases hop
  | _ => simp [Accepts]

theorem accepts_numbers (hop : op.isArithmetic) (hl : l.isNumeric) (hr : r.isNumeric) :
    op.Accepts l.kind r.kind :=
  (accepts_arithmetic_iff hop).2 (Or.inl ⟨hl, hr⟩)

/-- The three things that an operator can do with two values. -/
inductive Explained (op : BinaryOp) (l r : Value) (pos : Position) : Except Fault Value → Prop where
  | refused {cause : Cause} (hkinds : ¬op.Accepts l.kind r.kind)
      (hfamily : cause.family = .typing) : Explained op l r pos (.error ⟨cause, pos⟩)
  | failed {cause : Cause} (hfails : op.Fails l r cause) :
      Explained op l r pos (.error ⟨cause, pos⟩)
  | given {v : Value} (hkinds : op.Accepts l.kind r.kind) (hgives : op.Gives l r v.kind) :
      Explained op l r pos (.ok v)

/-! ## Arithmetic on integers -/

section Integers

variable {a b : Int64} {n : Int}

/-- Two integers give the exact result if it fits. -/
theorem apply_of_integerResult? (h : op.integerResult? a.toInt b.toInt = some n) :
    op.apply (.integer a) (.integer b) pos = op.fitted a b pos (Integer.fit? n) := by
  unfold integerResult? at h
  split at h
  · cases h
  · next hguard =>
    -- division by zero has no result in the integers
    have hdivisor : op.isDivision → b ≠ 0 := by
      rintro hop rfl
      exact hguard ⟨hop, rfl⟩
    cases op with
    | add =>
      obtain rfl := Option.some.inj h
      exact if_neg fun h => nomatch h.2
    | subtract =>
      obtain rfl := Option.some.inj h
      exact if_neg fun h => nomatch h.2
    | multiply =>
      obtain rfl := Option.some.inj h
      exact if_neg fun h => nomatch h.2
    | divide =>
      have hb := hdivisor rfl
      -- a quotient is an integer only if nothing is left over
      obtain ⟨hdvd, rfl⟩ : b.toInt ∣ a.toInt ∧ a.toInt.tdiv b.toInt = n := by simpa using h
      rw [apply_divide hb, if_pos hdvd, Integer.quotient?, if_neg hb]
    | modulo =>
      have hb := hdivisor rfl
      obtain rfl := Option.some.inj h
      rw [← Int64.toInt_mod, Integer.fit?_toInt]
      exact if_neg fun h => hb h.1
    | quotient =>
      have hb := hdivisor rfl
      obtain rfl := Option.some.inj h
      rw [← Integer.floor?_eq hb]
      exact if_neg fun h => hb h.1
    | power =>
      obtain ⟨he, rfl⟩ : 0 ≤ b.toInt ∧ a.toInt ^ b.toInt.toNat = n := by simpa using h
      rw [← Integer.power?_eq]
      exact if_pos he
    | _ => cases h

/-- Where no integer is asked for: for zero divisors, for quotients that leave a remainder, and for
negative exponents. -/
theorem integerResult?_eq_none (hop : op.isArithmetic)
    (h : op.integerResult? a.toInt b.toInt = none) :
    op.isDivision ∧ b = 0 ∨ op = divide ∧ b ≠ 0 ∧ ¬b.toInt ∣ a.toInt ∨
      op = power ∧ b.toInt < 0 := by
  unfold integerResult? at h
  split at h
  · next hguard => exact Or.inl ⟨hguard.1, Integer.toInt_eq_zero_iff.1 hguard.2⟩
  · next hguard =>
    cases op with
    | divide =>
      refine Or.inr (Or.inl ⟨rfl, ?_, by simpa using h⟩)
      rintro rfl
      exact hguard ⟨rfl, rfl⟩
    | power => exact Or.inr (Or.inr ⟨rfl, by simpa using h⟩)
    | compare c => cases hop
    | conj => cases hop
    | disj => cases hop
    | _ => cases h

theorem gives_integerResult? (h : op.integerResult? a.toInt b.toInt = some n) :
    op.Gives (.integer a) (.integer b) .integer := by
  unfold integerResult? at h
  split at h
  · cases h
  · cases op with
    | divide => exact .fraction (Or.inl rfl) (Or.inl rfl)
    | power => exact .whole (Or.inr ⟨rfl, by simpa using Option.isSome_of_eq_some h⟩)
    | compare c => cases h
    | conj => cases h
    | disj => cases h
    | _ => exact .whole (Or.inl (by decide))

end Integers

/-! ## Arithmetic on doubles -/

section Doubles

variable {x y : Float}

theorem apply_arithmetic (hop : op.isArithmetic) (hpower : op ≠ power) :
    op.apply l r pos = op.arithmetic l r pos := by
  cases op with
  | power => exact absurd rfl hpower
  | compare c => cases hop
  | conj => cases hop
  | disj => cases hop
  | _ => rfl

/-- Only two integers are not computed on as doubles. -/
theorem arithmetic_doubles (hl : l.toFloat? = some x) (hr : r.toFloat? = some y)
    (hdouble : l.kind = .float ∨ r.kind = .float) :
    op.arithmetic l r pos = op.onFloats x y pos := by
  cases l with
  | integer a =>
    cases r with
    | integer b => rcases hdouble with h | h <;> cases h
    | float y =>
      obtain rfl := Option.some.inj hl
      obtain rfl := Option.some.inj hr
      rfl
    | _ => cases hr
  | float x =>
    obtain rfl := Option.some.inj hl
    cases r with
    | integer b =>
      obtain rfl := Option.some.inj hr
      rfl
    | float y =>
      obtain rfl := Option.some.inj hr
      rfl
    | _ => cases hr
  | _ => cases hl

/-- On doubles only division fails. -/
theorem onFloats_given (hop : op.isArithmetic) (hpower : op ≠ power)
    (hdivisor : ¬((y == 0.0) = true ∧ op.isDivision)) :
    ∃ z : Float, op.onFloats x y pos = .ok (.float z) := by
  unfold onFloats
  rw [if_neg (by rwa [Bool.and_eq_true])]
  cases op with
  | power => exact absurd rfl hpower
  | compare c => cases hop
  | conj => cases hop
  | disj => cases hop
  | _ => exact ⟨_, rfl⟩

/-- Only a power of two integers with an exponent that is not negative is not computed on
doubles. -/
theorem raise_doubles (h : ∀ b e : Int64, l = .integer b → r = .integer e → e.toInt < 0) :
    raise l r pos = floatPower l r pos := by
  unfold raise
  split
  · next b e => exact if_neg (by have := h b e rfl rfl; omega)
  · rfl

/-- A finite power is a number, and a double if an operand is one. -/
theorem floatPower_doubles (pos : Position) (hl : l.toFloat? = some x) (hr : r.toFloat? = some y) :
    ∃ v : Value, (v.kind = .integer ∨ v.kind = .float) ∧
      (l.kind = .float ∨ r.kind = .float → v.kind = .float) ∧
      floatPower l r pos =
        if (Float.pow x y).isFinite then .ok v else .error ⟨.noRealPower l.shown r.shown, pos⟩ := by
  unfold floatPower
  rw [hl, hr]
  dsimp only
  cases l with
  | integer a =>
    cases r with
    | integer b =>
      -- of two integers, a power that is whole is an integer again
      refine ⟨Value.ofWhole (Float.pow x y), ?_, (by rintro (h | h) <;> cases h), rfl⟩
      unfold Value.ofWhole
      split
      · exact Or.inl rfl
      · exact Or.inr rfl
    | _ => exact ⟨.float (Float.pow x y), Or.inr rfl, fun _ => rfl, rfl⟩
  | _ => exact ⟨.float (Float.pow x y), Or.inr rfl, fun _ => rfl, rfl⟩

end Doubles

/-- Arithmetic does not take two values of which one is no number, other than two texts. -/
theorem arithmetic_strangers (hnumber : l.toFloat? = none ∨ r.toFloat? = none)
    (hkind : l.kind = r.kind → l.kind = .subroutine) :
    op.arithmetic l r pos = .error (op.unsupported l.kind r.kind pos) := by
  unfold arithmetic
  split
  · next a b => exact absurd ⟨rfl, rfl⟩ (Value.not_doubles hnumber)
  · next s t => cases hkind rfl
  · split
    · next hx hy => exact absurd ⟨hx, hy⟩ (Value.not_doubles hnumber)
    · rfl

/-- What fails is a fault, whatever else the operator could have done. -/
theorem apply_of_fails (h : op.Fails l r cause) : op.apply l r pos = .error ⟨cause, pos⟩ := by
  cases h with
  | zeroDivisor hop hl hr =>
    have harithmetic := arithmetic_of_isDivision hop
    rw [apply_arithmetic harithmetic.1 harithmetic.2]
    -- the divisor is compared with zero as an integer, or as a double if either operand is one
    cases Value.meeting l r with
    | integers a b => exact if_pos ⟨hr, hop⟩
    | doubles hx hy hdouble =>
      rw [arithmetic_doubles hx hy hdouble]
      exact if_pos (by rw [(Value.isZero_iff hy).1 hr, hop]; rfl)
    | texts s t => cases hl
    | booleans a b => cases hl
    | strangers hnumber hkind => exact absurd ⟨hl, hr.isNumeric⟩ (Value.not_numbers hnumber)
  | overflow hresult hrange =>
    rw [apply_of_integerResult? hresult, Integer.fit?_eq_none_iff.2 hrange, fitted]
  | noRealPower hl hr hfraction hfinite =>
    obtain ⟨v, -, -, hpower⟩ := floatPower_doubles pos hl hr
    rw [apply, raise_doubles hfraction, hpower, if_neg (by rw [hfinite]; exact Bool.false_ne_true)]

/-- Where operands of the right kinds fail, the operator gives this fault. -/
theorem explained_of_fails (h : op.Fails l r cause) :
    op.Explained l r pos (op.apply l r pos) := by
  rw [apply_of_fails h]
  exact .failed h

/-! ## What each rule does -/

/-- A power that is computed on doubles has a result exactly if it is finite. -/
theorem explained_power {x y : Float} (hl : l.toFloat? = some x) (hr : r.toFloat? = some y)
    (hfraction : ∀ b e : Int64, l = .integer b → r = .integer e → e.toInt < 0) :
    power.Explained l r pos (power.apply l r pos) := by
  have hl' := Value.isNumeric_of_toFloat? hl
  have hr' := Value.isNumeric_of_toFloat? hr
  cases hfinite : (Float.pow x y).isFinite with
  | false => exact explained_of_fails (.noRealPower hl hr hfraction hfinite)
  | true =>
    obtain ⟨v, hnumber, hdouble, hpower⟩ := floatPower_doubles pos hl hr
    rw [apply, raise_doubles hfraction, hpower, if_pos hfinite]
    refine .given (accepts_numbers rfl hl' hr') ?_
    by_cases hkind : l.kind = .float ∨ r.kind = .float
    · rw [hdouble hkind]
      exact .double rfl hl' hr' hkind
    · -- two integers, so the exponent is negative
      cases l with
      | integer b =>
        cases r with
        | integer e => exact .fraction (Or.inr ⟨rfl, hfraction b e rfl rfl⟩) hnumber
        | float y => exact absurd (Or.inr rfl) hkind
        | _ => cases hr
      | float x => exact absurd (Or.inl rfl) hkind
      | _ => cases hl

/-- On two integers an operator fails or gives what is asked for; where no integer is asked for, the
result is computed on doubles. -/
theorem explained_integers (hop : op.isArithmetic) (a b : Int64) :
    op.Explained (.integer a) (.integer b) pos (op.apply (.integer a) (.integer b) pos) := by
  have hkinds : op.Accepts (Value.integer a).kind (Value.integer b).kind :=
    accepts_numbers hop rfl rfl
  cases hresult : op.integerResult? a.toInt b.toInt with
  | some n =>
    rw [apply_of_integerResult? hresult]
    cases hfit : Integer.fit? n with
    | some k => exact .given hkinds (gives_integerResult? hresult)
    | none => exact .failed (.overflow hresult (Integer.fit?_eq_none_iff.1 hfit))
  | none =>
    rcases integerResult?_eq_none hop hresult with ⟨hdivision, rfl⟩ | ⟨rfl, hb, hdvd⟩ | ⟨rfl, he⟩
    · exact explained_of_fails (.zeroDivisor hdivision rfl rfl)
    · rw [apply_divide hb, if_neg hdvd]
      exact .given hkinds (.fraction (Or.inl rfl) (Or.inr rfl))
    · refine explained_power rfl rfl ?_
      rintro _ _ ⟨⟩ ⟨⟩
      exact he

/-- What arithmetic gives is explained, powers apart. -/
theorem explained_arithmetic (hop : op.isArithmetic) (hpower : op ≠ power) :
    op.Explained l r pos (op.apply l r pos) := by
  have happly : op.apply l r pos = op.arithmetic l r pos := apply_arithmetic hop hpower
  -- operands meet in five ways; only the first two and sums of texts have a result
  cases Value.meeting l r with
  | integers a b => exact explained_integers hop a b
  | doubles hl hr hdouble =>
    have hl' := Value.isNumeric_of_toFloat? hl
    have hr' := Value.isNumeric_of_toFloat? hr
    by_cases hzero : r.IsZero ∧ op.isDivision
    · exact explained_of_fails (.zeroDivisor hzero.2 hl' hzero.1)
    · rw [Value.isZero_iff hr] at hzero
      obtain ⟨z, hz⟩ := onFloats_given hop hpower hzero
      rw [happly, arithmetic_doubles hl hr hdouble, hz]
      exact .given (accepts_numbers hop hl' hr') (.double hop hl' hr' hdouble)
  | texts s t =>
    rw [happly]
    by_cases hadd : op = add
    · rw [hadd]
      exact .given (Or.inr ⟨rfl, rfl⟩) .joined
    · have hrefused : op.arithmetic (.text s) (.text t) pos =
          .error (op.unsupported .text .text pos) := if_neg hadd
      rw [hrefused]
      refine .refused ?_ rfl
      rw [accepts_arithmetic_iff hop]
      rintro (⟨h, -⟩ | ⟨h, -⟩)
      · cases h
      · exact hadd h
  | booleans a b =>
    rw [happly]
    refine .refused ?_ rfl
    rw [accepts_arithmetic_iff hop]
    rintro (⟨h, -⟩ | ⟨-, h, -⟩) <;> cases h
  | strangers hnumber hkind =>
    rw [happly, arithmetic_strangers hnumber hkind]
    refine .refused ?_ rfl
    rw [accepts_arithmetic_iff hop]
    rintro (hnumbers | ⟨-, htexts⟩)
    · exact Value.not_numbers hnumber hnumbers
    · exact Value.not_both hkind (by decide) htexts

/-- Numbers can be compared. -/
theorem compare_doubles (c : Comparison) {x y : Float} (hl : l.toFloat? = some x)
    (hr : r.toFloat? = some y) : ∃ b : Bool, c.apply l r pos = .ok (.boolean b) := by
  unfold Comparison.apply
  split
  · exact ⟨_, rfl⟩
  · cases hl
  · cases hl
  · split
    · split
      · exact ⟨_, rfl⟩
      · exact ⟨_, rfl⟩
    · next h => exact (h x y hl hr).elim

/-- Values of two kinds cannot be compared unless they are numbers. -/
theorem compare_strangers (c : Comparison) (hnumber : l.toFloat? = none ∨ r.toFloat? = none)
    (hkind : l.kind = r.kind → l.kind = .subroutine) :
    c.apply l r pos = .error ⟨.incomparable c l.kind r.kind, pos⟩ := by
  unfold Comparison.apply
  split
  · next a b => exact absurd ⟨rfl, rfl⟩ (Value.not_doubles hnumber)
  · next s t => cases hkind rfl
  · next a b => cases hkind rfl
  · split
    · next hx hy => exact absurd ⟨hx, hy⟩ (Value.not_doubles hnumber)
    · rfl

/-- What a comparison gives is explained. -/
theorem explained_compare (c : Comparison) :
    (compare c).Explained l r pos ((compare c).apply l r pos) := by
  cases Value.meeting l r with
  | integers a b => exact .given (Or.inl ⟨rfl, rfl⟩) (.truth rfl)
  | doubles hl hr hdouble =>
    obtain ⟨b, hb⟩ := compare_doubles c hl hr
    rw [apply, hb]
    have hnumbers := And.intro (Value.isNumeric_of_toFloat? hl) (Value.isNumeric_of_toFloat? hr)
    exact .given (Or.inl hnumbers) (.truth rfl)
  | texts s t => exact .given (Or.inr (Or.inl ⟨rfl, rfl⟩)) (.truth rfl)
  | booleans a b =>
    -- only the two comparisons for equality
    cases c with
    | equal => exact .given (Or.inr (Or.inr ⟨rfl, rfl, Or.inl rfl⟩)) (.truth rfl)
    | notEqual => exact .given (Or.inr (Or.inr ⟨rfl, rfl, Or.inr rfl⟩)) (.truth rfl)
    | _ =>
      refine .refused ?_ rfl
      rintro (⟨h, -⟩ | ⟨h, -⟩ | ⟨-, -, h | h⟩) <;> cases h
  | strangers hnumber hkind =>
    rw [apply, compare_strangers c hnumber hkind]
    refine .refused ?_ rfl
    rintro (hnumbers | htexts | ⟨hl, hr, -⟩)
    · exact Value.not_numbers hnumber hnumbers
    · exact Value.not_both hkind (by decide) htexts
    · exact Value.not_both hkind (by decide) ⟨hl, hr⟩

theorem explained_logic (hop : op = conj ∨ op = disj) :
    op.Explained l r pos (op.logic l r pos) := by
  have haccepts : op.Accepts l.kind r.kind ↔ l.kind = .boolean ∧ r.kind = .boolean := by
    rcases hop with rfl | rfl <;> exact Iff.rfl
  unfold logic
  rcases Value.toBoolean_cases l (operandOf op.text) pos with ⟨a, rfl⟩ | ⟨hkind, hl⟩
  · -- the right operand is looked at whichever truth value the left one is
    rcases Value.toBoolean_cases r (operandOf op.text) pos with ⟨b, rfl⟩ | ⟨hkind, hr⟩
    · rcases hop with rfl | rfl <;> exact .given ⟨rfl, rfl⟩ (.truth rfl)
    · rw [hr]
      exact .refused (fun h => hkind (haccepts.1 h).2) rfl
  · rw [hl]
    exact .refused (fun h => hkind (haccepts.1 h).1) rfl

/-- Only numbers have powers. -/
theorem raise_strangers (hnumber : l.toFloat? = none ∨ r.toFloat? = none) :
    raise l r pos = .error (power.unsupported l.kind r.kind pos) := by
  have hfraction : ∀ b e : Int64, l = .integer b → r = .integer e → e.toInt < 0 := by
    rintro b e rfl rfl
    exact absurd ⟨rfl, rfl⟩ (Value.not_doubles hnumber)
  rw [raise_doubles hfraction]
  unfold floatPower
  split
  · next hx hy => exact absurd ⟨hx, hy⟩ (Value.not_doubles hnumber)
  · rfl

theorem explained_raise : power.Explained l r pos (power.apply l r pos) := by
  have hrefused (hnumber : l.toFloat? = none ∨ r.toFloat? = none) :
      power.Explained l r pos (power.apply l r pos) := by
    rw [apply, raise_strangers hnumber]
    exact .refused (Value.not_numbers hnumber) rfl
  cases Value.meeting l r with
  | integers b e => exact explained_integers rfl b e
  | doubles hl hr hdouble =>
    refine explained_power hl hr ?_
    rintro b e rfl rfl
    rcases hdouble with h | h <;> cases h
  | texts s t => exact hrefused (Or.inl rfl)
  | booleans a b => exact hrefused (Or.inl rfl)
  | strangers hnumber hkind => exact hrefused hnumber

/-- An operator refuses its operands, fails, or gives a result. -/
theorem explained (op : BinaryOp) (l r : Value) (pos : Position) :
    op.Explained l r pos (op.apply l r pos) := by
  cases op with
  | compare c => exact explained_compare c
  | conj => exact explained_logic (Or.inl rfl)
  | disj => exact explained_logic (Or.inr rfl)
  | power => exact explained_raise
  | _ => exact explained_arithmetic rfl nofun

/-! ## Kinds decide -/

/-- No operator takes a subroutine. -/
theorem not_accepts_subroutine (h : l.kind = .subroutine ∨ r.kind = .subroutine) :
    ¬op.Accepts l.kind r.kind := by
  rcases h with h | h <;> rw [h] <;> cases op <;> simp [Accepts, Kind.isNumeric]

theorem Fails.accepts (h : op.Fails l r cause) : op.Accepts l.kind r.kind :=
  have ⟨hop, hl, hr⟩ := h.numbers
  accepts_numbers hop hl hr

namespace Explained

variable {result : Except Fault Value}

/-- An operator refuses its operands exactly if it does not accept their kinds. -/
theorem typing_iff (h : op.Explained l r pos result) :
    (∃ cause, result = .error ⟨cause, pos⟩ ∧ cause.family = .typing) ↔
      ¬op.Accepts l.kind r.kind := by
  cases h with
  | refused hkinds hfamily => exact iff_of_true ⟨_, rfl, hfamily⟩ hkinds
  | failed hfails =>
    refine iff_of_false ?_ (not_not_intro hfails.accepts)
    rintro ⟨cause, ⟨⟩, hfamily⟩
    rw [hfails.family] at hfamily
    cases hfamily
  | given hkinds hgives =>
    refine iff_of_false ?_ (not_not_intro hkinds)
    rintro ⟨cause, hresult, -⟩
    cases hresult

/-- A fault of an operator stands at the operator. -/
theorem position {fault : Fault} (h : op.Explained l r pos (.error fault)) :
    fault.position = pos := by
  cases h with
  | refused => rfl
  | failed => rfl

/-- Operands of the right kinds give a value or fail in evaluation. -/
theorem of_accepts (h : op.Explained l r pos result) (hkinds : op.Accepts l.kind r.kind) :
    (∃ cause, result = .error ⟨cause, pos⟩ ∧ cause.family = .evaluation ∧ op.Fails l r cause) ∨
      ∃ v, result = .ok v ∧ op.Gives l r v.kind := by
  cases h with
  | refused hrefused => exact absurd hkinds hrefused
  | failed hfails => exact Or.inl ⟨_, rfl, hfails.family, hfails⟩
  | given _ hgives => exact Or.inr ⟨_, rfl, hgives⟩

end Explained

/-- **Whether operands are accepted depends on their kinds alone.** A fault of an operator is always
at its position. It is a type error exactly if the kinds of the operands are not accepted, and no
operator accepts subroutines. On accepted kinds, a fault is an evaluation error with one of the
reasons to fail, and a value is of the kind that the operands give. A reason to fail is always
reported, and only arithmetic on numbers has one; division of a number by zero always does. -/
theorem typed_by_kinds (op : BinaryOp) (l r : Value) (pos : Position) :
    ((∃ cause, op.apply l r pos = .error ⟨cause, pos⟩ ∧ cause.family = .typing) ↔
      ¬op.Accepts l.kind r.kind) ∧
    (∀ fault, op.apply l r pos = .error fault → fault.position = pos) ∧
    (l.kind = .subroutine ∨ r.kind = .subroutine → ¬op.Accepts l.kind r.kind) ∧
    (op.Accepts l.kind r.kind →
      (∃ cause, op.apply l r pos = .error ⟨cause, pos⟩ ∧ cause.family = .evaluation ∧
        op.Fails l r cause) ∨
      ∃ v, op.apply l r pos = .ok v ∧ op.Gives l r v.kind) ∧
    (∀ cause, op.Fails l r cause →
      op.apply l r pos = .error ⟨cause, pos⟩ ∧ op.isArithmetic ∧ l.isNumeric ∧ r.isNumeric) ∧
    (op.isDivision → l.isNumeric → r.IsZero →
      op.apply l r pos = .error ⟨op.zeroDivisor, pos⟩ ∧ op.zeroDivisor.family = .evaluation) := by
  -- everything is read off the explanation of the result
  have h := explained op l r pos
  refine ⟨h.typing_iff, ?_, not_accepts_subroutine, h.of_accepts,
    fun cause hfails => ⟨apply_of_fails hfails, hfails.numbers⟩, ?_⟩
  · intro fault happly
    rw [happly] at h
    exact h.position
  · intro hop hl hr
    have hfails : op.Fails l r op.zeroDivisor := .zeroDivisor hop hl hr
    exact ⟨apply_of_fails hfails, hfails.family⟩

/-- A number is divided by the negative zero, and joined with a text. -/
theorem typed_by_kinds_zero :
    (divide.isDivision ∧ (Value.integer 1).isNumeric ∧ (Value.float (-0.0)).IsZero) ∧
      divide.apply (.integer 1) (.float (-0.0)) ⟨0, 2⟩ = .error ⟨.divisionByZero, ⟨0, 2⟩⟩ ∧
      ¬add.Accepts (Value.integer 1).kind (Value.text "1").kind ∧
      ∃ cause, add.apply (.integer 1) (.text "1") ⟨0, 2⟩ = .error ⟨cause, ⟨0, 2⟩⟩ ∧
        cause.family = .typing := by
  have hzero : (Value.float (-0.0)).IsZero := by
    change ((-0.0 : Float) == 0.0) = true
    decide
  have hkinds : ¬add.Accepts (Value.integer 1).kind (Value.text "1").kind := by
    decide
  obtain ⟨-, -, -, -, -, hdivision⟩ := typed_by_kinds divide (.integer 1) (.float (-0.0)) ⟨0, 2⟩
  obtain ⟨hrefused, -⟩ := typed_by_kinds add (.integer 1) (.text "1") ⟨0, 2⟩
  exact ⟨⟨rfl, rfl, hzero⟩, (hdivision rfl rfl hzero).1, hkinds, hrefused.2 hkinds⟩

end BinaryOp

end Primer
