import Mathlib.Data.List.Chain
import Mathlib.Data.List.TakeWhile
import Mathlib.Data.Prod.Lex
import Primer.Cursor

/-!
# Places in rows

A cursor holds what is left of the rows. Among all rows it stands at a `Place`, a row and an index
in it, and a cursor moves in two ways only: it takes the next lexeme of its row, or leaves a row
that is used up for the next one (`Cursor.Step`). Each of them leads to the next place
(`Cursor.Step.next`), so a trail of such steps passes the places in order and leaves none out
(`Trail.isChain_places`).
-/

set_option autoImplicit false

namespace Primer

/-- A row, by its number, and the number of lexemes before the place in it. -/
@[ext]
structure Place where
  row : Nat
  index : Nat
deriving DecidableEq, Repr

namespace Place

/-- Places are in the order in which they are read. -/
instance : Preorder Place := Preorder.lift fun a => toLex (a.row, a.index)

theorem lt_iff {a b : Place} : a < b ↔ a.row < b.row ∨ a.row = b.row ∧ a.index < b.index :=
  Prod.Lex.toLex_lt_toLex

/-- The places in the rows: at a lexeme, at the end of a row, or after the last row. -/
def InRows (rows : List Row) (a : Place) : Prop :=
  (∃ row, rows[a.row]? = some row ∧ a.index ≤ row.length) ∨ a.row = rows.length ∧ a.index = 0

/-- What is left of the rows at a place. -/
def rest (rows : List Row) (a : Place) : List Row :=
  match rows.drop a.row with
  | [] => []
  | row :: later => row.drop a.index :: later

/-- The next place is after the next lexeme of the row. Only where all of the row was taken it is
at the beginning of the next row. -/
inductive Next (rows : List Row) : Place → Place → Prop
  | lexeme {i j : Nat} {row : Row} (hrow : rows[i]? = some row) (hj : j < row.length) :
      Next rows ⟨i, j⟩ ⟨i, j + 1⟩
  | row {i : Nat} {row : Row} (hrow : rows[i]? = some row) : Next rows ⟨i, row.length⟩ ⟨i + 1, 0⟩

variable {rows : List Row} {a b : Place}

/-- The next place comes after the one before. -/
theorem Next.lt (h : Next rows a b) : a < b := by
  cases h with
  | lexeme _ _ => exact lt_iff.2 (.inr ⟨rfl, Nat.lt_succ_self _⟩)
  | row _ => exact lt_iff.2 (.inl (Nat.lt_succ_self _))

/-- There is a token at the place before the next one. -/
theorem Next.inRows (h : Next rows a b) : b.InRows rows := by
  cases h with
  | lexeme hrow hj => exact .inl ⟨_, hrow, hj⟩
  | @row i row hrow =>
    obtain ⟨hi, -⟩ := List.getElem?_eq_some_iff.1 hrow
    by_cases hlast : i + 1 < rows.length
    · exact .inl ⟨rows[i + 1], List.getElem?_eq_getElem hlast, Nat.zero_le _⟩
    · exact .inr ⟨by dsimp only; omega, rfl⟩

/-- At the beginning of a row all of it is left. -/
theorem rest_of_index (h : a.index = 0) : a.rest rows = rows.drop a.row := by
  unfold rest
  rw [h]
  cases rows.drop a.row <;> rfl

theorem rest_eq_cons {row : Row} (h : rows[a.row]? = some row) :
    a.rest rows = row.drop a.index :: rows.drop (a.row + 1) := by
  obtain ⟨hlt, rfl⟩ := List.getElem?_eq_some_iff.1 h
  simp only [rest, List.drop_eq_getElem_cons hlt]

/-- What is left are as many rows as there are from the place on. -/
theorem length_rest (rows : List Row) (a : Place) :
    (a.rest rows).length = rows.length - a.row := by
  rw [rest, ← List.length_drop]
  cases rows.drop a.row <;> rfl

theorem rest_of_length (h : a.row = rows.length) : a.rest rows = [] := by
  simp only [rest, h, List.drop_length]

end Place

namespace Cursor

/-- The place among the rows at which a cursor stands. -/
def place (rows : List Row) (c : Cursor) : Place := ⟨rows.length - c.rows.length, c.taken⟩

/-- The cursor stands at a place in the rows and holds what is left of them there. -/
def Within (rows : List Row) (c : Cursor) : Prop :=
  (c.place rows).InRows rows ∧ c.rows = (c.place rows).rest rows

/-- The ways in which a cursor moves: it takes the next lexeme of the row, or leaves a row that is
used up. -/
inductive Step : Cursor → Cursor → Prop
  | take (x : Lexeme) (xs : Row) (later : List Row) (n : Nat) (p : Position) :
      Step ⟨(x :: xs) :: later, n, p⟩ ⟨xs :: later, n + 1, x.position⟩
  | leave (later : List Row) (n : Nat) (p : Position) : Step ⟨[] :: later, n, p⟩ ⟨later, 0, p⟩

variable {rows : List Row} {c d : Cursor}

theorem within_start (rows : List Row) : (start rows).Within rows := by
  have hplace : (start rows).place rows = ⟨0, 0⟩ := by simp [place, start]
  refine ⟨?_, by rw [hplace, Place.rest_of_index rfl]; rfl⟩
  rw [hplace]
  cases rows with
  | nil => exact .inr ⟨rfl, rfl⟩
  | cons row later => exact .inl ⟨row, rfl, Nat.zero_le _⟩

/-- No more is left than there are rows. -/
theorem Within.length_le (h : c.Within rows) : c.rows.length ≤ rows.length := by
  rw [h.2, Place.length_rest]
  exact Nat.sub_le _ _

/-- A cursor that is not at the end holds the rest of the row at its place. -/
theorem Within.row {current : Row} {later : List Row} {n : Nat} {p : Position}
    (h : Within rows ⟨current :: later, n, p⟩) :
    ∃ i row, place rows ⟨current :: later, n, p⟩ = ⟨i, n⟩ ∧ rows[i]? = some row ∧
      n ≤ row.length ∧ current = row.drop n ∧ later = rows.drop (i + 1) := by
  obtain ⟨hplace | ⟨hend, -⟩, hrest⟩ := h
  · obtain ⟨row, hrow, hn⟩ := hplace
    rw [Place.rest_eq_cons hrow] at hrest
    obtain ⟨hcurrent, hlater⟩ := List.cons.inj hrest
    exact ⟨_, row, rfl, hrow, hn, hcurrent, hlater⟩
  · rw [Place.rest_of_length hend] at hrest
    cases hrest

/-- The place that a cursor stands at, if what it holds is what is left there. -/
theorem place_of_rows {i : Nat} (h : c.rows = (Place.mk i c.taken).rest rows)
    (hi : i ≤ rows.length) : c.place rows = ⟨i, c.taken⟩ := by
  have hlength : c.rows.length = rows.length - i := by rw [h, Place.length_rest]
  simp only [place, Place.mk.injEq, and_true]
  omega

/-- **A step leads to the next place**, and there the cursor holds what is left. -/
theorem Step.next (h : Step c d) (hc : c.Within rows) :
    d.Within rows ∧ (c.place rows).Next rows (d.place rows) := by
  -- it is enough to find the place by its row and column
  suffices hnext : ∃ b, b.index = d.taken ∧ d.rows = b.rest rows ∧ (c.place rows).Next rows b by
    obtain ⟨⟨i, j⟩, rfl, hrest, hstep⟩ := hnext
    have hin := hstep.inRows
    have hi : i ≤ rows.length := by
      rcases hin with ⟨row, hrow, -⟩ | ⟨hend, -⟩
      · exact (List.getElem?_eq_some_iff.1 hrow).1.le
      · exact hend.le
    have hplace := place_of_rows hrest hi
    rw [← hplace] at hin hrest hstep
    exact ⟨⟨hin, hrest⟩, hstep⟩
  cases h with
  | take x xs later n p =>
    obtain ⟨i, row, hplace, hrow, -, hcurrent, rfl⟩ := hc.row
    have hn : n < row.length := by
      rw [← Nat.not_le, ← List.drop_eq_nil_iff, ← hcurrent]
      exact List.cons_ne_nil x xs
    have hxs : xs = row.drop (n + 1) := by
      rw [List.drop_eq_getElem_cons hn] at hcurrent
      exact (List.cons.inj hcurrent).2
    refine ⟨⟨i, n + 1⟩, rfl, ?_, ?_⟩
    · rw [Place.rest_eq_cons hrow, ← hxs]
    · rw [hplace]
      exact .lexeme hrow hn
  | leave later n p =>
    obtain ⟨i, row, hplace, hrow, hn, hcurrent, rfl⟩ := hc.row
    obtain rfl : n = row.length := Nat.le_antisymm hn (List.drop_eq_nil_iff.1 hcurrent.symm)
    refine ⟨⟨i + 1, 0⟩, rfl, ?_, ?_⟩
    · rw [Place.rest_of_index rfl]
    · rw [hplace]
      exact .row hrow

/-- Nothing but blank rows is left of a cursor if and only if all rows are blank from the row of its
place on. -/
theorem skipBlank_eq_nil_iff (hc : c.Within rows) :
    c.skipBlank.rows = [] ↔ ∀ row ∈ rows.drop (c.place rows).row, row = [] := by
  obtain ⟨hplace, hrest⟩ := hc
  by_cases htaken : c.taken = 0
  · rw [Place.rest_of_index (a := c.place rows) htaken] at hrest
    simp only [skipBlank, if_pos htaken, hrest, List.dropWhile_eq_nil_iff, List.isEmpty_iff]
  · -- a row from which a lexeme was taken is not blank, also if it is used up
    rcases hplace with ⟨row, hrow, hindex⟩ | ⟨-, hindex⟩
    · have hne : row ≠ [] := by
        rintro rfl
        exact htaken (Nat.le_zero.1 hindex)
      have hmem : row ∈ rows.drop (c.place rows).row := by
        obtain ⟨hlt, rfl⟩ := List.getElem?_eq_some_iff.1 hrow
        rw [List.drop_eq_getElem_cons hlt]
        exact List.mem_cons_self
      rw [Place.rest_eq_cons hrow] at hrest
      refine iff_of_false ?_ fun hall => hne (hall row hmem)
      rw [skipBlank, if_neg htaken, hrest]
      exact List.cons_ne_nil _ _
    · exact absurd hindex htaken

end Cursor

/-! ## Trails -/

/-- A finite path of steps from a cursor to a cursor, as data: every cursor on the way is stored. -/
inductive Trail (origin : Cursor) : Cursor → Type
  | start : Trail origin origin
  | step {c d : Cursor} (before : Trail origin c) (h : c.Step d) : Trail origin d

namespace Trail

variable {origin : Cursor} {rows : List Row}

/-- The cursors of a trail, from the first to the last. -/
def cursors : {c : Cursor} → Trail origin c → List Cursor
  | _, start => [origin]
  | d, step before _ => before.cursors ++ [d]

/-- The places that a trail passes. -/
def places (rows : List Row) {c : Cursor} (t : Trail origin c) : List Place :=
  t.cursors.map (Cursor.place rows)

/-- A trail ends at the place of its last cursor. -/
theorem getLast?_places {c : Cursor} (t : Trail origin c) :
    (t.places rows).getLast? = some (c.place rows) := by
  cases t with
  | start => rfl
  | step before h => simp [places, cursors]

theorem within {c : Cursor} (t : Trail origin c) (h : origin.Within rows) :
    ∀ d ∈ t.cursors, d.Within rows := by
  induction t with
  | start =>
    intro d hd
    rwa [List.mem_singleton.1 hd]
  | @step c e before hstep ih =>
    intro d hd
    have hc : c ∈ before.cursors := by cases before <;> simp [cursors]
    rcases List.mem_append.1 hd with hd | hd
    · exact ih d hd
    · rw [List.mem_singleton.1 hd]
      exact (hstep.next (ih c hc)).1

theorem within_last {c : Cursor} (t : Trail origin c) (h : origin.Within rows) : c.Within rows :=
  t.within h c (by cases t <;> simp [cursors])

/-- **A trail leaves no place out.** -/
theorem isChain_places {c : Cursor} (t : Trail origin c) (h : origin.Within rows) :
    (t.places rows).IsChain (Place.Next rows) := by
  induction t with
  | start => exact .singleton _
  | @step c d before hstep ih =>
    have hnext := (hstep.next (before.within_last h)).2
    rw [places, cursors, List.map_append, List.isChain_append]
    refine ⟨ih, .singleton _, fun a ha b hb => ?_⟩
    have hlast : (before.places rows).getLast? = some a := ha
    rw [getLast?_places] at hlast
    obtain rfl := Option.some.inj hlast
    obtain rfl : d.place rows = b := by simpa using hb
    exact hnext

/-- A trail leads onward, if anywhere. -/
theorem place_le {c : Cursor} (t : Trail origin c) (h : origin.Within rows) :
    origin.place rows ≤ c.place rows := by
  induction t with
  | start => exact le_rfl
  | step before hstep ih => exact ih.trans (hstep.next (before.within_last h)).2.lt.le

end Trail

end Primer
