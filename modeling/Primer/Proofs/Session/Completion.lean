import Primer.Proofs.OpenBlocks
import Primer.Proofs.Pattern
import Primer.Session

/-!
# An entry that is asked for more can be completed

Every block that an entry leaves open has a line that closes it (`Block.closingLine`). The line of
a counting loop names its variable, which a line of the entry has named before, so that it splits
into the same token again (`Scanner.scanLine_closingLine`).
-/

set_option autoImplicit false

namespace Primer

namespace Scanner

/-- The word splits into a name. -/
structure IsName (word : String) : Prop where
  characters : ∃ c cs, word.toList = c :: cs ∧ startsName c = true ∧
    ∀ d ∈ cs, continuesName d = true
  token : classify word = .name word

/-- Only a word that is not reserved gives a name. -/
theorem piece_name {c : Char} {cs : List Char} {v : String} {more : Nat}
    (h : piece c cs = .token (.name v) more) : IsName v := by
  obtain ⟨w, rest, -, -, hspells, -⟩ := piece_token_iff.1 h
  cases hspells with
  | name hs hc hcs hboolean hkeyword =>
    exact ⟨⟨_, _, hs, hc, hcs⟩, classify_of_ne hboolean hkeyword⟩

/-- The names that are scanned are names. -/
theorem scanFrom_names {line : Nat} :
    ∀ {column skip : Nat} {cs : List Char} {row : Row}, scanFrom line column skip cs = .ok row →
      ∀ x ∈ row, ∀ v, x.token = .name v → IsName v := by
  intro column skip cs
  -- by induction on the characters; those of a token are skipped
  induction cs generalizing column skip with
  | nil =>
    intro row h x hx
    obtain rfl : [] = row := Except.ok.inj h
    exact absurd hx List.not_mem_nil
  | cons c cs ih =>
    intro row h
    cases skip with
    | succ skip => exact ih h
    | zero =>
      rcases scanFrom_cases h with ⟨more, -, hrest⟩ | ⟨t, more, rest, hpiece, hrest, rfl⟩
      · exact ih hrest
      · intro x hx v hv
        rcases List.mem_cons.1 hx with rfl | hx
        · obtain rfl : t = .name v := hv
          exact piece_name hpiece
        · exact ih hrest x hx v hv

theorem scanLines_names {rows : List Row} {i : Nat} {lines : List String}
    (h : scanLines i lines = .ok rows) :
    ∀ row ∈ rows, ∀ x ∈ row, ∀ v, x.token = .name v → IsName v := by
  induction lines generalizing i rows with
  | nil =>
    obtain rfl : [] = rows := Except.ok.inj h
    exact fun row hrow => absurd hrow List.not_mem_nil
  | cons s rest ih =>
    obtain ⟨row, more, rfl, hrow, hmore⟩ := scanLines_cons h
    intro r hr
    rcases List.mem_cons.1 hr with rfl | hr
    · exact scanFrom_names hrow
    · exact ih hmore r hr

/-- Splitting into tokens never fails for the end of the input. -/
theorem scanLines_fault {i : Nat} {lines : List String} {fault : Fault}
    (h : scanLines i lines = .error fault) : fault.atEnd = false := by
  have hstands := scanLines_stands i lines
  rw [h] at hstands
  obtain ⟨k, s, -, -, n, offset, -, hoffends, -⟩ := hstands
  simp only [Fault.atEnd, Diagnostic.atEnd, Fault.diagnostic, hoffends.family]

/-! ## Scanning words -/

/-- A word is scanned up to the first character that does not continue it. -/
theorem scanFrom_word (line column : Nat) {c : Char} {cs rest : List Char}
    (hc : startsName c = true) (hcs : ∀ d ∈ cs, continuesName d = true)
    (hrest : ∀ d ∈ rest.head?, continuesName d = false) :
    scanFrom line column 0 (c :: (cs ++ rest)) =
      (scanFrom line (column + 1 + cs.length) 0 rest).map
        (⟨classify (String.ofList (c :: cs)), line, column⟩ :: ·) := by
  have hread : ReadAs (c :: cs) (classify (String.ofList (c :: cs))) rest :=
    ⟨c, cs, rfl, piece_word hc hcs hrest⟩
  rw [Nat.add_assoc, Nat.add_comm 1]
  exact scanFrom_readAs line column hread

end Scanner

/-- A line that closes the block. -/
def Block.closingLine : Block → String
  | .untilLoop => "until True"
  | block => block.closing

/-- The line that closes a block has its closing tokens. -/
theorem Scanner.scanLine_closingLine (line : Nat) {block : Block}
    (h : ∀ counter, block = .forLoop counter → IsName counter) :
    ∃ row, scanLine line block.closingLine = .ok row ∧
      row.map Lexeme.token = block.closingTokens := by
  cases block with
  | forLoop counter =>
    obtain ⟨⟨c, cs, hchars, hc, hcs⟩, htoken⟩ := h counter rfl
    have hword : String.ofList (c :: cs) = counter := by rw [← hchars, String.ofList_toList]
    -- the line is the word `next`, a blank, and the word of the variable up to the end
    have hline : (Block.forLoop counter).closingLine.toList =
        'n' :: (['e', 'x', 't'] ++ ' ' :: c :: (cs ++ [])) := by
      show ("next" ++ " " ++ counter).toList = _
      simp [String.toList_append, hchars]
    refine ⟨[⟨.keyword .kwNext, line, 0⟩, ⟨.name counter, line, 5⟩], ?_, rfl⟩
    have hgap : scanFrom line 4 0 (' ' :: c :: (cs ++ [])) = scanFrom line 5 0 (c :: (cs ++ [])) :=
      rfl
    have hnext : ∀ d ∈ ['e', 'x', 't'], continuesName d = true := List.all_eq_true.1 rfl
    rw [scanLine, hline, scanFrom_word line 0 (by decide) hnext (by simp; decide)]
    show (scanFrom line 4 0 _).map _ = _
    rw [hgap, scanFrom_word line 5 hc hcs (by simp), hword, htoken]
    rfl
  | subroutine kind => cases kind <;> exact ⟨_, rfl, rfl⟩
  | _ => exact ⟨_, rfl, rfl⟩

theorem Scanner.scanLines_closingLines {stack : List OpenBlock} (i : Nat)
    (h : ∀ o ∈ stack, ∀ counter, o.block = .forLoop counter → IsName counter) :
    ∃ rows, scanLines i (stack.map fun o => o.block.closingLine) = .ok rows ∧
      List.Forall₂ OpenBlock.ClosedBy stack rows := by
  induction stack generalizing i with
  | nil => exact ⟨[], rfl, .nil⟩
  | cons o outer ih =>
    obtain ⟨row, hrow, htokens⟩ := scanLine_closingLine i (h o List.mem_cons_self)
    obtain ⟨rows, hrows, hclosed⟩ := ih (i + 1) fun o' ho' => h o' (List.mem_cons_of_mem o ho')
    exact ⟨row :: rows, by simp only [List.map_cons, scanLines, hrow, hrows],
      .cons htokens hclosed⟩

namespace Program

/-- Lines that end in a block are completed by the closing lines of their open blocks. -/
theorem statementsOf_closingLines {lines : List String} {fault : Fault}
    (h : statementsOf lines = .error fault) (hend : fault.atEnd = true) :
    ∃ rows, Scanner.scan lines = .ok rows ∧
      ∃ stmts, statementsOf (lines ++ (openBlocks rows).map fun o => o.block.closingLine) =
        .ok stmts := by
  cases hscan : Scanner.scan lines with
  | error fault' =>
    obtain rfl : fault' = fault := by
      simpa [statementsOf, ofLines, hscan, Except.map, Except.bind] using h
    exact absurd hend (by simp [Scanner.scanLines_fault hscan])
  | ok rows =>
    have hcomplete : (ofRows rows).complete = .error fault := by
      simpa [statementsOf, ofLines, hscan, Except.map, Except.bind] using h
    obtain ⟨⟨t, ht⟩, -⟩ := open_of_atEnd hcomplete hend
    -- the variable of an open counting loop is a name in the row that opened the loop
    have hnames : ∀ o ∈ openBlocks rows, ∀ counter, o.block = .forLoop counter →
        Scanner.IsName counter := by
      intro o ho counter hblock
      obtain ⟨row, hat, hopens⟩ := (openBlocks_spec rows).1 o ho
      rw [hblock] at hopens
      obtain ⟨x, hx, htoken⟩ := Row.name_of_opens? hopens
      exact Scanner.scanLines_names hscan row (List.mem_of_getElem? hat) x hx counter htoken
    obtain ⟨more, hmore, hclosed⟩ :=
      Scanner.scanLines_closingLines (0 + lines.length) hnames
    obtain ⟨stmts, hstmts⟩ := complete_closingAll ht hclosed
    refine ⟨rows, rfl, stmts, ?_⟩
    have hall : Scanner.scan (lines ++ (openBlocks rows).map fun o => o.block.closingLine) =
        .ok (rows ++ more) := Scanner.scanLines_append hscan hmore
    simpa [statementsOf, ofLines, hall, Except.map, Except.bind] using hstmts

/-- A row that closes the innermost open block completes the rows or leaves the next block open. -/
theorem complete_closing {rows : List Row} {row : Row} {t : Scaffold} {o : OpenBlock}
    {outer : List OpenBlock} (h : Scaffold.empty.advance rows = .ok t)
    (hopen : openBlocks rows = o :: outer) (hrow : o.ClosedBy row) :
    openBlocks (rows ++ [row]) = outer ∧
      ((outer = [] ∧ ∃ stmts, (ofRows (rows ++ [row])).complete = .ok stmts) ∨
        ∃ next rest, outer = next :: rest ∧ next.row < o.row ∧
          (ofRows (rows ++ [row])).complete = .error next.fault ∧ next.fault.atEnd = true) := by
  obtain ⟨⟨u, hu⟩, houter⟩ := Scaffold.advance_closing h hopen hrow
  refine ⟨houter, ?_⟩
  cases outer with
  | nil => exact Or.inl ⟨rfl, (complete_of_fits hu).1 houter⟩
  | cons next rest =>
    -- the next block around was opened in an earlier row
    have hpairwise := (openBlocks_spec rows).2
    rw [hopen] at hpairwise
    refine Or.inr ⟨next, rest, rfl, ?_, (complete_of_fits hu).2 next rest houter, rfl⟩
    exact (List.pairwise_cons.1 hpairwise).1 next List.mem_cons_self

end Program

/-- A session asks for more only if its entry ends in a block. -/
theorem Session.statementsOf_of_more {κ : Type} [Console κ] {fuel : Nat} {s : Session κ}
    {line : String} (h : (s.feed fuel line).1 = .more) :
    ∃ fault, Program.statementsOf (s.pending ++ [line]) = .error fault ∧ fault.atEnd = true := by
  revert h
  fun_cases feed fuel s line with
  | case2 entry _ fault hentry hend => exact fun _ => ⟨fault, hentry, hend⟩
  | _ => exact fun h => absurd h (by simp)

namespace Program

/-- **Every open block can be closed, the innermost first.** If rows end in a block, the fault is
that of the innermost block that their first lexemes leave open, at the word that opened it. A row
that closes this block completes the rows, or leaves the fault of the next block around it, which
an earlier row opened; closing all of them completes the rows. So a session asks for more only if
the closing lines of the open blocks complete its entry. -/
theorem unclosed_closable :
    (∀ (rows : List Row) (fault : Fault), (ofRows rows).complete = .error fault →
      fault.atEnd = true →
      ∃ o outer, openBlocks rows = o :: outer ∧ fault = o.fault ∧
        (∀ b ∈ openBlocks rows, ∃ tail,
          rows[b.row]? = some (⟨.keyword b.block.opener, b.position⟩ :: tail)) ∧
        (∀ row, o.ClosedBy row →
          openBlocks (rows ++ [row]) = outer ∧
            ((outer = [] ∧ ∃ stmts, (ofRows (rows ++ [row])).complete = .ok stmts) ∨
              ∃ next rest, outer = next :: rest ∧ next.row < o.row ∧
                (ofRows (rows ++ [row])).complete = .error next.fault ∧
                next.fault.atEnd = true)) ∧
        ∀ more, List.Forall₂ OpenBlock.ClosedBy (openBlocks rows) more →
          ∃ stmts, (ofRows (rows ++ more)).complete = .ok stmts) ∧
    ∀ (κ : Type) [Console κ] (fuel : Nat) (s : Session κ) (line : String),
      (s.feed fuel line).1 = .more →
      ∃ rows, Scanner.scan (s.pending ++ [line]) = .ok rows ∧
        ∃ stmts, statementsOf (s.pending ++ [line] ++
          (openBlocks rows).map fun o => o.block.closingLine) = .ok stmts := by
  constructor
  · intro rows fault h hend
    -- at the end of the rows some block is open, and the fault is the innermost one
    obtain ⟨⟨t, ht⟩, o, outer, hopen, hfault⟩ := open_of_atEnd h hend
    refine ⟨o, outer, hopen, hfault, ?_, fun row hrow => complete_closing ht hopen hrow,
      fun more hmore => complete_closingAll ht hmore⟩
    intro b hb
    obtain ⟨row, hat, hopens⟩ := (openBlocks_spec rows).1 b hb
    obtain ⟨tail, rfl⟩ := Row.opens?_eq_some hopens
    exact ⟨tail, hat⟩
  · intro κ _ fuel s line hmore
    obtain ⟨fault, hentry, hend⟩ := Session.statementsOf_of_more hmore
    exact statementsOf_closingLines hentry hend

/-- A loop in a subroutine: the loop is closed first, and the entry asks for two more lines. -/
theorem unclosed_closable_loop :
    let rows : List Row :=
      [[⟨.keyword .kwProcedure, ⟨0, 0⟩⟩, ⟨.name "p", ⟨0, 10⟩⟩, ⟨.mark .openParen, ⟨0, 11⟩⟩,
        ⟨.mark .closeParen, ⟨0, 12⟩⟩], [⟨.keyword .kwDo, ⟨1, 0⟩⟩]]
    let s : Session Buffer := ⟨Machine.start (Buffer.withInput [] none) true .lowest, ["do"]⟩
    (∃ o outer, openBlocks rows = o :: outer ∧
        (⟨.unclosedBlock .untilLoop 1, ⟨1, 0⟩⟩ : Fault) = o.fault) ∧
      ∃ entry, Scanner.scan (s.pending ++ ["while True"]) = .ok entry ∧
        ∃ stmts, statementsOf (s.pending ++ ["while True"] ++
          (openBlocks entry).map fun o => o.block.closingLine) = .ok stmts := by
  intro rows s
  have hmore : (s.feed 9 "while True").1 = .more := by decide +kernel
  obtain ⟨o, outer, hopen, hfault, -⟩ := unclosed_closable.1 rows _ rfl rfl
  exact ⟨⟨o, outer, hopen, hfault⟩, unclosed_closable.2 Buffer 9 s "while True" hmore⟩

end Program

end Primer
