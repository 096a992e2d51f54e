import Primer.Proofs.Drawing
import Primer.Proofs.Footprint.Calls
import Primer.Proofs.Session.Agreement
import Primer.Proofs.Soundness

/-!
# Showing values changes nothing else

Whether values are shown is asked in one place only, after a statement outside of all blocks. So
two runs that differ in this flag, and in what was shown before, go the same way
(`Eval.beside_stmt`), and what they show differs in the values alone: the lines of the run that
shows them are those of the run that does not, with the value of a statement after the lines of the
statement (`Eval.echo_transparent`).
-/

set_option autoImplicit false

namespace Primer

/-! ## Two runs that differ in what they show -/

/-- The machine with the flag, and with the lines that were shown so far. -/
def Machine.showing (m : Machine Buffer) (echo : Bool) (shown : Array String) : Machine Buffer :=
  { m with echo := echo, console := { m.console with written := shown } }

/-- The outcome with its machine changed in this way. -/
def Outcome.showing {α : Type} (o : Outcome Buffer α) (echo : Bool) (shown : Array String) :
    Outcome Buffer α :=
  match o with
  | .done a m => .done a (m.showing echo shown)
  | .failed fault m => .failed fault (m.showing echo shown)
  | .panicked least most console => .panicked least most { console with written := shown }
  | .outOfFuel => .outOfFuel

/-- Two outcomes that differ in the flag and in the lines shown before: since then both have added
the same lines, and no limit was set to them. -/
inductive Outcome.Beside {α : Type} (A : α → Prop) (before : Array String) (echo : Bool)
    (shown : Array String) : Outcome Buffer α → Outcome Buffer α → Prop
  | done {a : α} {m : Machine Buffer} {added : Array String} (ha : A a)
      (hleft : m.console.writesLeft = none) (hadded : m.console.written = before ++ added) :
      Beside A before echo shown (.done a m) (.done a (m.showing echo (shown ++ added)))
  | failed {fault : Fault} {m : Machine Buffer} {added : Array String}
      (hleft : m.console.writesLeft = none) (hadded : m.console.written = before ++ added) :
      Beside A before echo shown (.failed fault m)
        (.failed fault (m.showing echo (shown ++ added)))
  | panicked {least most : Float} {console : Buffer} {added : Array String}
      (hleft : console.writesLeft = none) (hadded : console.written = before ++ added) :
      Beside A before echo shown (.panicked least most console)
        (.panicked least most { console with written := shown ++ added })
  | outOfFuel : Beside A before echo shown .outOfFuel .outOfFuel

/-- Two computations that differ at most in the flag and in the lines shown before, if no limit is
set to the lines. -/
def Exec.Beside {α : Type} (A : α → Prop) (x x' : Exec Buffer α) : Prop :=
  ∀ (m : Machine Buffer) (echo : Bool) (shown : Array String), m.console.writesLeft = none →
    (x m).Beside A m.console.written echo shown (x' (m.showing echo shown))

variable {κ α β : Type} {A : α → Prop} {B : β → Prop}

namespace Outcome

variable {m m' : Machine Buffer} {before shown : Array String} {echo : Bool}

/-- A machine on which nothing was shown since. -/
theorem beside_done {a : α} (ha : A a) (hleft : m.console.writesLeft = none)
    (hwritten : m.console.written = before) :
    (Outcome.done a m).Beside A before echo shown (.done a (m.showing echo shown)) := by
  have h : (Outcome.done a m).Beside A before echo shown
      (.done a (m.showing echo (shown ++ #[]))) :=
    .done ha hleft (by rw [hwritten, Array.append_empty])
  rwa [Array.append_empty] at h

theorem beside_failed {fault : Fault} (hleft : m.console.writesLeft = none)
    (hwritten : m.console.written = before) :
    (Outcome.failed fault m).Beside A before echo shown
      (.failed fault (m.showing echo shown)) := by
  have h : (Outcome.failed fault m).Beside A before echo shown
      (.failed fault (m.showing echo (shown ++ #[]))) :=
    .failed hleft (by rw [hwritten, Array.append_empty])
  rwa [Array.append_empty] at h

theorem beside_panicked {least most : Float} {console : Buffer} (hleft : console.writesLeft = none)
    (hwritten : console.written = before) :
    (Outcome.panicked least most console).Beside A before echo shown
      (.panicked least most { console with written := shown }) := by
  have h : (Outcome.panicked least most console).Beside A before echo shown
      (.panicked least most { console with written := shown ++ #[] }) :=
    .panicked hleft (by rw [hwritten, Array.append_empty])
  rwa [Array.append_empty] at h

end Outcome

namespace Exec

/-- Computations stay beside each other in a row. -/
theorem Beside.bind {x x' : Exec Buffer α} {f f' : α → Exec Buffer β} (hx : Exec.Beside A x x')
    (hf : ∀ a, A a → Exec.Beside B (f a) (f' a)) : Exec.Beside B (x >>= f) (x' >>= f') := by
  intro m echo shown hleft
  have hfirst := hx m echo shown hleft
  simp only [Bind.bind]
  generalize x m = o, x' (m.showing echo shown) = o' at hfirst ⊢
  cases hfirst with
  | failed hleft hadded => exact .failed hleft hadded
  | panicked hleft hadded => exact .panicked hleft hadded
  | outOfFuel => exact .outOfFuel
  | @done a m₁ added ha hleft hadded =>
    -- what the second computation adds comes after what the first one added
    have hsecond := hf a ha m₁ echo (shown ++ added) hleft
    dsimp only
    generalize f a m₁ = o, f' a (m₁.showing echo (shown ++ added)) = o' at hsecond ⊢
    cases hsecond with
    | done hb hleft hmore =>
      rw [Array.append_assoc]
      exact .done hb hleft (by rw [hmore, hadded, Array.append_assoc])
    | failed hleft hmore =>
      rw [Array.append_assoc]
      exact .failed hleft (by rw [hmore, hadded, Array.append_assoc])
    | panicked hleft hmore =>
      rw [Array.append_assoc]
      exact .panicked hleft (by rw [hmore, hadded, Array.append_assoc])
    | outOfFuel => exact .outOfFuel

/-- What admits the rules for computations in a row. -/
def beside : Rules Buffer Buffer where
  Rel := Exec.Beside
  pure h _ _ _ hleft := Outcome.beside_done h hleft rfl
  fail _ _ _ _ hleft := Outcome.beside_failed hleft rfl
  exhausted _ _ _ _ := .outOfFuel
  bind hx hf := Beside.bind hx hf

end Exec

namespace Machine

theorem beside_found (name : String) (pos : Position) :
    Exec.Beside (fun _ => True) (found name pos) (found name pos) := by
  intro m echo shown hleft
  show (Exec.ofExcept (m.lookup name pos) m).Beside _ _ _ _
    (Exec.ofExcept (m.lookup name pos) (m.showing echo shown))
  cases m.lookup name pos with
  | ok v => exact Outcome.beside_done trivial hleft rfl
  | error fault => exact Outcome.beside_failed hleft rfl

theorem beside_assign (target : Target) (v : Value) (pos : Position) :
    Exec.Beside (fun _ => True) (Machine.assign target v pos) (Machine.assign target v pos) := by
  rintro ⟨globals, scope, depth, flag, console, draws⟩ echo shown hleft
  -- the table that is written is found without a look at the flag or the console
  cases scope with
  | none =>
    simp only [Machine.assign, showing]
    cases globals.assign target.name v target.sealing pos with
    | ok table' => exact Outcome.beside_done trivial hleft rfl
    | error fault => exact Outcome.beside_failed hleft rfl
  | some table =>
    simp only [Machine.assign, showing]
    cases target.isGlobal with
    | true =>
      cases globals.assign target.name v target.sealing pos with
      | ok table' => exact Outcome.beside_done trivial hleft rfl
      | error fault => exact Outcome.beside_failed hleft rfl
    | false =>
      dsimp only
      cases table.assign target.name v target.sealing pos with
      | ok table' => exact Outcome.beside_done trivial hleft rfl
      | error fault => exact Outcome.beside_failed hleft rfl

/-- A line is added to both outputs. -/
theorem beside_writeLine (s : String) (pos : Position) :
    Exec.Beside (fun _ => True) (Machine.writeLine s pos : Exec Buffer Unit)
      (Machine.writeLine s pos) := by
  rintro ⟨globals, scope, depth, flag, ⟨written, prompts, input, left⟩, draws⟩ echo shown hleft
  obtain rfl : left = none := hleft
  -- the line comes last on both sides
  have h : Outcome.Beside (fun _ : Unit => True) written echo shown
      (.done () ⟨globals, scope, depth, flag, ⟨written.push s, prompts, input, none⟩, draws⟩)
      (.done () ⟨globals, scope, depth, echo, ⟨shown ++ #[s], prompts, input, none⟩, draws⟩) :=
    .done trivial rfl (by simp)
  rw [Array.append_singleton] at h
  exact h

/-- A line that is read does not depend on what was shown. -/
theorem beside_readLine (prompt : String) (pos : Position) :
    Exec.Beside (fun _ => True) (Machine.readLine prompt pos : Exec Buffer String)
      (Machine.readLine prompt pos) := by
  rintro ⟨globals, scope, depth, flag, ⟨written, prompts, input, left⟩, draws⟩ echo shown hleft
  obtain rfl : left = none := hleft
  cases input with
  | nil => exact Outcome.beside_failed rfl rfl
  | cons s rest => exact Outcome.beside_done trivial rfl rfl

theorem beside_inCall {x x' : Exec Buffer α} (hx : Exec.Beside A x x') (table : Table) :
    Exec.Beside A (inCall table x) (inCall table x') := by
  intro m echo shown hleft
  have hbody := hx { m with scope := some table, depth := m.depth + 1 } echo shown hleft
  change (Outcome.leave (x { m with scope := some table, depth := m.depth + 1 }) m).Beside A
    m.console.written echo shown (Outcome.leave (x' (showing
      { m with scope := some table, depth := m.depth + 1 } echo shown)) (m.showing echo shown))
  generalize x { m with scope := some table, depth := m.depth + 1 } = o,
    x' (showing { m with scope := some table, depth := m.depth + 1 } echo shown) = o' at hbody ⊢
  cases hbody with
  | done ha hleft hadded => exact .done ha hleft hadded
  | failed hleft hadded => exact .failed hleft hadded
  | panicked hleft hadded => exact .panicked hleft hadded
  | outOfFuel => exact .outOfFuel

theorem beside_limited {x x' : Exec Buffer α} (hx : Exec.Beside A x x') (pos : Position) :
    Exec.Beside A (limited pos x) (limited pos x') := by
  intro m echo shown hleft
  by_cases hdeep : Eval.maxDepth ≤ m.depth
  · have hboth : limited pos x m = .failed ⟨.callDepth Eval.maxDepth, pos⟩ m ∧
        limited pos x' (m.showing echo shown) =
          .failed ⟨.callDepth Eval.maxDepth, pos⟩ (m.showing echo shown) :=
      ⟨if_pos hdeep, if_pos hdeep⟩
    rw [hboth.1, hboth.2]
    exact Outcome.beside_failed hleft rfl
  · have hboth : limited pos x m = x m ∧
        limited pos x' (m.showing echo shown) = x' (m.showing echo shown) :=
      ⟨if_neg hdeep, if_neg hdeep⟩
    rw [hboth.1, hboth.2]
    exact hx m echo shown hleft

end Machine

/-- A draw does not depend on what was shown. -/
theorem Native.beside_drawNumber (args : List Value) (pos : Position) :
    Exec.Beside Value.IsScalar (Native.drawNumber args pos : Exec Buffer Value)
      (Native.drawNumber args pos) := by
  intro m echo shown hleft
  have hfair := Native.yields_draw args pos m.draws
  have hdraws : (m.showing echo shown).draws = m.draws := rfl
  simp only [Native.drawNumber, hdraws]
  generalize Native.draw m.draws args pos = r at hfair ⊢
  cases r with
  | ok drawn =>
    cases drawn with
    | number v draws =>
      have hv : v.IsScalar := hfair _ rfl
      exact Outcome.beside_done hv hleft rfl
    | tooWide least most => exact Outcome.beside_panicked hleft rfl
  | error fault => exact Outcome.beside_failed hleft rfl

namespace Eval

/-- All means of a statement pass over the flag, and over what was shown before. -/
def besideMeans : StmtMeans Fragment.whole Buffer Buffer where
  exprs := Exec.beside
  stmts := Exec.beside
  lift h := h
  found _ pos := Machine.beside_found _ pos
  assign _ _ _ pos := Machine.beside_assign _ _ pos
  writeLine := Machine.beside_writeLine
  readLine := Machine.beside_readLine
  drawNumber := Native.beside_drawNumber
  inCall {_ _ _ _} hx table _ pos := Machine.beside_limited (Machine.beside_inCall hx table) pos

/-- **Statements do not look at the flag**, nor at what was shown before. -/
theorem beside_stmt (n : Nat) (s : Stmt) :
    Exec.Beside (fun flow => ∀ w ∈ flow.value, Fragment.whole.values w)
      (stmt n s : Exec Buffer Flow) (stmt n s) :=
  (besideMeans.evaluates_and_runs n).2 s (Stmt.all_true s)

/-! ## Statements that end with a value -/

/-- Only an expression goes on with a value. -/
theorem ends_silent [Console κ] (n : Nat) {s : Stmt} (h : ∀ e, s ≠ .expr e) :
    (stmt n s : Exec κ Flow).Ends fun flow => ∀ v, flow = .next v → v = none := by
  -- a block that goes on to its end has no value of its own
  have hnext : ∀ v, Flow.next none = .next v → v = none := by
    rintro _ ⟨⟩
    rfl
  have hblock : ∀ body, (block (stmt (κ := κ) (n - 1)) body).Ends
      fun flow => ∀ v, flow = .next v → v = none := by
    rintro body m _ m' hdone v rfl
    exact block_next hdone
  cases n with
  | zero => exact (Exec.ending κ).exhausted
  | succ n =>
    change (Exec.ending κ).Rel _ (stmt (n + 1) s) (stmt (n + 1) s)
    cases s with
    | expr e => exact absurd rfl (h e)
    | assign target e pos =>
      exact Exec.ends_after fun v => Exec.ends_after fun _ => (Exec.ending κ).pure hnext
    | define kind name params body pos =>
      exact Exec.ends_after fun _ => (Exec.ending κ).pure hnext
    | ret value pos =>
      cases value with
      | none => exact (Exec.ending κ).pure nofun
      | some e => exact Exec.ends_after fun v => (Exec.ending κ).pure nofun
    | branch c body rest pos =>
      refine Exec.ends_after fun b => ?_
      cases b with
      | true => exact hblock body
      | false =>
        exact (Exec.ending κ).arms hnext (fun c _ => Exec.ends_any _) fun body _ => hblock body
    | whileLoop c body pos =>
      exact (Exec.ending κ).whileLoop hnext (Exec.ends_any _) (hblock body) n
    | untilLoop body c pos =>
      exact (Exec.ending κ).untilLoop hnext (hblock body) (Exec.ends_any _) n
    | forLoop counter first last step body pos =>
      refine Exec.ends_after fun a => Exec.ends_after fun b => Exec.ends_after fun s => ?_
      split
      · -- a step of zero, then a last number that is out of reach
        exact (Exec.ending κ).fail rfl
      · split
        · exact (Exec.ending κ).fail rfl
        · refine (Exec.ending κ).countLoop hnext (fun i => ?_) b s n a
          exact Exec.ends_after fun _ => hblock body

/-- Outside of all subroutines, a well-formed statement that ends with a value is an expression. -/
theorem expr_of_value [Console κ] {n : Nat} {s : Stmt} (hs : s.wellFormed none = true)
    {m m' : Machine κ} {flow : Flow} (h : stmt n s m = .done flow m') {v : Value}
    (hv : flow.value = some v) : ∃ e, s = .expr e := by
  by_contra hnone
  -- all that is left is a return, which a well-formed statement does not do outside of subroutines
  have hsilent := ends_silent n (not_exists.1 hnone) m flow m' h
  cases flow with
  | next w =>
    obtain rfl : w = none := hsilent w rfl
    cases hv
  | returned w => exact (ends_stmt n s hs m _ m' h w rfl).1 rfl

/-! ## Programs -/

/-- What a statement outside of all blocks came to: the lines that it showed, and the value that it
ended with, if it ended with one. -/
structure Part where
  statement : Stmt
  lines : List String
  value : Option Value

/-- The lines of a part, and after them a line with its value. -/
def Part.valued (p : Part) : List String := p.lines ++ (p.value.map Value.shown).toList

/-- The lines that were shown on the way from the first console to the second. -/
def shownBetween (c c' : Buffer) : List String :=
  c'.written.toList.drop c.written.size

/-- What statements come to that are run one after the other, up to the first that fails or
panics. -/
def parts (n : Nat) : List Stmt → Machine Buffer → List Part
  | [], _ => []
  | s :: rest, m =>
    match stmt n s m with
    | .done flow m' => ⟨s, shownBetween m.console m'.console, flow.value⟩ :: parts n rest m'
    | .failed _ m' => [⟨s, shownBetween m.console m'.console, none⟩]
    | .panicked _ _ console => [⟨s, shownBetween m.console console, none⟩]
    | .outOfFuel => []

/-- What the statements of a source come to. -/
def partsOf (n : Nat) (source : List String) (m : Machine Buffer) : List Part :=
  match Program.ofLines source with
  | .error _ => []
  | .ok p => parts n p.statements m

/-- What was shown in between are the lines that were added. -/
theorem shownBetween_eq {c c' : Buffer} {added : Array String}
    (h : c'.written = c.written ++ added) : shownBetween c c' = added.toList := by
  rw [shownBetween, h, Array.toList_append, ← Array.length_toList, List.drop_left]

/-- Without echo, a statement at the top level shows nothing of its own. -/
theorem topLevel_quiet {n : Nat} {s : Stmt} {m m' : Machine Buffer} {flow : Flow}
    (h : stmt n s m = .done flow m') (hquiet : m'.echo = false) :
    topLevel n s m = .done flow.value m' := by
  rw [topLevel, Exec.bind_of_done h]
  cases flow.value with
  | none => rfl
  | some v =>
    dsimp only
    rw [hquiet]
    rfl

/-- A machine that shows values adds the value of the statement to what the statement showed. -/
theorem topLevel_showing {n : Nat} {s : Stmt} {m m' : Machine Buffer} {flow : Flow}
    {shown : Array String} (h : stmt n s m = .done flow (m'.showing true shown))
    (hleft : m'.console.writesLeft = none) :
    topLevel n s m = .done flow.value
      (m'.showing true (shown ++ (flow.value.map Value.shown).toList.toArray)) := by
  rw [topLevel, Exec.bind_of_done h]
  obtain ⟨globals, scope, depth, flag, ⟨written, prompts, input, left⟩, draws⟩ := m'
  obtain rfl : left = none := hleft
  cases flow.value with
  | none => simp [Machine.showing, pure]
  | some v =>
    simp [Machine.showing, Dialogue.writeLine, Machine.writeLine, Console.writeLine,
      Buffer.writeLine]

/-- Statements in a row: the values come in between, and nothing else differs. -/
theorem topLevels_showing (n : Nat) (stmts : List Stmt) :
    ∀ (m : Machine Buffer) (shown : Array String), m.echo = false →
      m.console.writesLeft = none →
      topLevels n stmts (m.showing true shown) = (topLevels n stmts m).showing true
          (shown ++ ((parts n stmts m).flatMap Part.valued).toArray) ∧
        ∀ c, (topLevels n stmts m).console? = some c → c.written.toList =
          m.console.written.toList ++ (parts n stmts m).flatMap Part.lines := by
  induction stmts with
  | nil =>
    intro m shown _ _
    refine ⟨?_, fun c hc => ?_⟩
    · rw [parts, List.flatMap_nil, Array.append_empty]
      rfl
    · obtain rfl := Option.some.inj hc
      simp [parts]
  | cons s rest ih =>
    intro m shown hquiet hleft
    have hstmt := beside_stmt n s m true shown hleft
    have hecho : ∀ m', (stmt n s m).machine? = some m' → m'.echo = false := fun m' hend =>
      (sameLevel_stmt n s hend).echo.trans hquiet
    simp only [topLevels, parts]
    cases hrun : stmt n s m with
    | done flow m₁ =>
      rw [hrun] at hstmt hecho
      generalize hloud : stmt n s (m.showing true shown) = o at hstmt
      cases hstmt with
      | @done _ _ added _ hleft hadded =>
        -- the lines of the statement come first, then its value, then what follows
        have hquiet := hecho m₁ rfl
        rw [Exec.bind_of_done (topLevel_quiet hrun hquiet),
          Exec.bind_of_done (topLevel_showing hloud hleft)]
        obtain ⟨hsame, hwritten⟩ := ih m₁ (shown ++ added ++
          (flow.value.map Value.shown).toList.toArray) hquiet hleft
        refine ⟨?_, fun c hc => ?_⟩
        · rw [hsame, List.flatMap_cons, Part.valued, shownBetween_eq hadded]
          exact congrArg (Outcome.showing _ true) (Array.toList_inj.1 (by simp))
        · rw [hwritten c hc, List.flatMap_cons, shownBetween_eq hadded, hadded,
            Array.toList_append, List.append_assoc]
    | failed fault m₁ =>
      rw [hrun] at hstmt
      generalize hloud : stmt n s (m.showing true shown) = o at hstmt
      cases hstmt with
      | @failed _ _ added hleft hadded =>
        -- a statement that fails has no value, and nothing follows
        have hfails : topLevel n s m = .failed fault m₁ ∧ topLevel n s (m.showing true shown) =
            .failed fault (m₁.showing true (shown ++ added)) := by
          simp only [topLevel]
          exact ⟨Exec.bind_of_failed hrun, Exec.bind_of_failed hloud⟩
        rw [Exec.bind_of_failed hfails.1, Exec.bind_of_failed hfails.2]
        refine ⟨?_, fun c hc => ?_⟩
        · simp [Part.valued, shownBetween_eq hadded, Outcome.showing]
        · obtain rfl := Option.some.inj hc
          simp [shownBetween_eq hadded, hadded]
    | panicked least most console =>
      rw [hrun] at hstmt
      generalize hloud : stmt n s (m.showing true shown) = o at hstmt
      cases hstmt with
      | @panicked _ _ _ added hleft hadded =>
        -- nor has one that panics
        simp only [topLevel, bind, hrun, hloud]
        refine ⟨?_, fun c hc => ?_⟩
        · simp [Part.valued, shownBetween_eq hadded, Outcome.showing]
        · obtain rfl := Option.some.inj hc
          simp [shownBetween_eq hadded, hadded]
    | outOfFuel =>
      rw [hrun] at hstmt
      generalize hloud : stmt n s (m.showing true shown) = o at hstmt
      cases hstmt with
      | outOfFuel =>
        simp only [topLevel, bind, hrun, hloud]
        exact ⟨rfl, fun _ hend => by cases hend⟩

/-- Of well-formed statements, only expressions end with a value. -/
theorem expr_of_part {n : Nat} {stmts : List Stmt} (h : Stmt.wellFormedAll none stmts = true) :
    ∀ m, ∀ part ∈ parts n stmts m, ∀ v, part.value = some v → ∃ e, part.statement = .expr e := by
  induction stmts with
  | nil => exact fun _ _ hpart => absurd hpart List.not_mem_nil
  | cons s rest ih =>
    simp only [Stmt.wellFormedAll, Bool.and_eq_true] at h
    intro m part hpart v hv
    simp only [parts] at hpart
    cases hrun : stmt n s m with
    | done flow m₁ =>
      rw [hrun] at hpart
      -- the part is of the first statement, or of one after it
      rcases List.mem_cons.1 hpart with rfl | hpart
      · exact expr_of_value h.1 hrun hv
      · exact ih h.2 m₁ part hpart v hv
    | failed fault m₁ =>
      rw [hrun] at hpart
      obtain rfl := List.mem_singleton.1 hpart
      cases hv
    | panicked least most console =>
      rw [hrun] at hpart
      obtain rfl := List.mem_singleton.1 hpart
      cases hv
    | outOfFuel =>
      rw [hrun] at hpart
      exact absurd hpart List.not_mem_nil

/-- **Showing values is transparent.** Take a source and any machine that does not show values, on a
console that takes any number of lines. The same machine, if it shows values, runs the source in the
same way: it is done, fails with the same fault, panics over the same bounds, or does not end, with
the same tables, prompts, draws and input left. Only the lines differ: the one run shows the lines
of each statement, and the other one the lines of each statement and then, if the statement ended
with a value, this value. A statement that ends with a value is an expression outside of all
blocks. -/
theorem echo_transparent (fuel : Nat) (source : List String) (m : Machine Buffer)
    (hquiet : m.echo = false) (hleft : m.console.writesLeft = none) :
    lines fuel source { m with echo := true } =
        (lines fuel source m).showing true
          (m.console.written ++ ((partsOf fuel source m).flatMap Part.valued).toArray) ∧
      (∀ c, (lines fuel source m).console? = some c →
        c.written.toList =
          m.console.written.toList ++ (partsOf fuel source m).flatMap Part.lines) ∧
      ∀ part ∈ partsOf fuel source m, ∀ v, part.value = some v →
        ∃ e, part.statement = .expr e := by
  change lines fuel source (m.showing true m.console.written) = _ ∧ _
  simp only [lines, partsOf]
  -- a source that does not scan shows nothing either way
  cases hread : Program.ofLines source with
  | error fault =>
    refine ⟨?_, fun c hc => ?_, fun _ hpart => absurd hpart List.not_mem_nil⟩
    · simp [Exec.fail, Outcome.showing]
    · obtain rfl := Option.some.inj hc
      simp
  | ok p =>
    obtain ⟨hsame, hwritten⟩ := topLevels_showing fuel p.statements m m.console.written hquiet hleft
    dsimp only
    refine ⟨?_, fun c hc => ?_, expr_of_part (Program.wellFormed_ofLines hread) m⟩
    · simp only [program, bind, hsame]
      cases topLevels fuel p.statements m with
      | done _ m' => cases p.fault <;> rfl
      | failed fault m' => rfl
      | panicked least most console => rfl
      | outOfFuel => rfl
    · refine hwritten c ?_
      simp only [program, bind] at hc
      revert hc
      cases topLevels fuel p.statements m with
      | done _ m' => cases p.fault <;> exact id
      | failed fault m' => exact id
      | panicked least most console => exact id
      | outOfFuel => exact id

/-- A call that gives nothing, a sum, a value within a block, an assignment and a name: shown are
the values of the sum and of the name. -/
theorem echo_transparent_sum :
    let source := ["print(7)", "1 + 1", "if True then", "3", "endif", "x = input()", "x"]
    let m : Machine Buffer := Machine.start (Buffer.withInput ["a"] none) false .lowest
    (m.echo = false ∧ m.console.writesLeft = none) ∧
      ∃ quiet, (lines 30 source m).machine? = some quiet ∧
        quiet.console.written.toList = ["7"] ∧
        lines 30 source { m with echo := true } =
          (lines 30 source m).showing true #["7", "2", "a"] ∧
        ∀ part ∈ partsOf 30 source m, ∀ v, part.value = some v → ∃ e, part.statement = .expr e := by
  intro source m
  have hends : (lines 30 source m).machine?.isSome = true := by decide +kernel
  have hlines : (partsOf 30 source m).flatMap Part.lines = ["7"] := by decide +kernel
  have hvalued : (partsOf 30 source m).flatMap Part.valued = ["7", "2", "a"] := by decide +kernel
  obtain ⟨quiet, hquiet⟩ := Option.isSome_iff_exists.1 hends
  obtain ⟨hsame, hwritten, hexprs⟩ := echo_transparent 30 source m rfl rfl
  have hshown : m.console.written ++ ["7", "2", "a"].toArray = #["7", "2", "a"] := rfl
  rw [hvalued, hshown] at hsame
  refine ⟨⟨rfl, rfl⟩, quiet, hquiet, ?_, hsame, hexprs⟩
  rw [hwritten quiet.console (Outcome.console?_of_machine? hquiet), hlines]
  rfl

end Eval

end Primer
