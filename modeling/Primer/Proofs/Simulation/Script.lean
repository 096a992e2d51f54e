import Primer.CommandLine
import Primer.Proofs.Simulation.Console
import Primer.Shell

/-!
# Scripts on the standard streams

A script reads and writes the standard streams, and a test runs the same source on a buffer. The two
consoles keep what was shown in different forms: one text with all prompts in it, or a list of lines
next to a list of prompts. What they have in common is the sequence of what they were asked for, and
a console that is `Traced` writes it down. Side by side, a buffer and the streams are asked for the
same (`Traced.Alike`), as long as no more lines are read than were typed in; the text of the streams
is that of the sequence, so a script leaves what the run on the buffer says
(`CommandLine.script_refines_buffer`).
-/

set_option autoImplicit false

namespace Primer

variable {κ : Type}

/-! ## Lines that are typed in -/

/-- No character of the line breaks it. -/
def Unbroken (line : String) : Prop := '\n' ∉ line.toList ∧ '\r' ∉ line.toList

instance (line : String) : Decidable (Unbroken line) := instDecidableAnd

namespace Stream

/-- The bytes of lines that are typed in, with a line feed after each. -/
def typed (input : List String) : List UInt8 :=
  input.flatMap fun line => line.toUTF8.data.toList ++ [lineFeed]

/-- A line feed is the form of no other character, and no part of its form. -/
theorem lineFeed_mem_encodeChar {c : Char} (h : lineFeed ∈ String.utf8EncodeChar c) :
    c = '\n' := by
  have hcode : ∀ n, lineFeed = UInt8.ofNat n → n % 256 = 10 := fun n heq => by
    simpa [lineFeed] using (congrArg UInt8.toNat heq).symm
  have hlow : c.val.toNat ≤ 127 := by
    -- all bytes of a longer form are 128 or more
    by_contra hhigh
    simp only [String.utf8EncodeChar, if_neg hhigh] at h
    split at h
    · rcases List.mem_pair.1 h with h | h <;> have := hcode _ h <;> omega
    · split at h <;> simp only [List.mem_cons, List.not_mem_nil, or_false] at h
      · rcases h with h | h | h <;> have := hcode _ h <;> omega
      · rcases h with h | h | h | h <;> have := hcode _ h <;> omega
  -- the form of any other character is its code in one byte
  simp only [String.utf8EncodeChar, if_pos hlow, List.mem_singleton] at h
  have hval := hcode _ h
  exact Char.ext (UInt32.toNat_inj.1 (by show c.val.toNat = 10; omega))

/-- The bytes of a text are the forms of its characters. -/
theorem data_toUTF8 (s : String) :
    s.toUTF8.data.toList = s.toList.flatMap String.utf8EncodeChar := by
  rw [String.toUTF8, ← String.utf8Encode_toList, List.utf8Encode, List.toList_data_toByteArray]

theorem lineFeed_notMem_toUTF8 {line : String} (h : '\n' ∉ line.toList) :
    lineFeed ∉ line.toUTF8.data.toList := by
  rw [data_toUTF8, List.mem_flatMap]
  rintro ⟨c, hc, hbyte⟩
  exact h (lineFeed_mem_encodeChar hbyte ▸ hc)

/-- A line is split off after its line feed. -/
theorem splitLine_append {bs : List UInt8} (h : lineFeed ∉ bs) (rest : List UInt8) :
    splitLine (bs ++ lineFeed :: rest) = (bs ++ [lineFeed], rest) := by
  induction bs with
  | nil => rfl
  | cons b bs ih =>
    obtain ⟨hb, hbs⟩ := not_or.1 (mt List.mem_cons.2 h)
    rw [List.cons_append, splitLine, if_neg (Ne.symm hb), ih hbs]
    rfl

theorem decode?_toUTF8 (s : String) : decode? s.toUTF8.data.toList = some s := by
  rw [decode?, Array.toArray_toList]
  exact dif_pos s.isValidUTF8

/-- Only the line feed is dropped from a line that is not broken. -/
theorem dropLineEnd_append {cs : List Char} (hfeed : '\n' ∉ cs) (hreturn : '\r' ∉ cs) :
    dropLineEnd (cs ++ ['\n']) = cs := by
  -- the characters are dropped from the end, where the line feed stands before a kept one
  have hkept : cs.reverse.dropWhile (fun c => c == '\n' || c == '\r') = cs.reverse := by
    cases hcs : cs.reverse with
    | nil => rfl
    | cons c rest =>
      have hc : c ∈ cs := List.mem_reverse.1 (hcs ▸ List.mem_cons_self)
      refine List.dropWhile_cons_of_neg fun hend => ?_
      rcases Bool.or_eq_true_iff.1 hend with h | h
      · exact hfeed (beq_iff_eq.1 h ▸ hc)
      · exact hreturn (beq_iff_eq.1 h ▸ hc)
  show ((cs ++ ['\n']).reverse.dropWhile _).reverse = cs
  rw [List.reverse_append, List.dropWhile_append_of_pos (by simp), hkept, List.reverse_reverse]

/-- Reading gives the first line that was typed in, as it was typed. -/
theorem readLine_typed {line : String} (h : Unbroken line) (rest : List String)
    (shown prompt : String) :
    readLine ⟨shown, typed (line :: rest)⟩ prompt = (.ok line, ⟨shown ++ prompt, typed rest⟩) := by
  have hbytes : line.toUTF8.data.toList ++ [lineFeed] = (line ++ "\n").toUTF8.data.toList := by
    rw [data_toUTF8, data_toUTF8, String.toList_append, List.flatMap_append]
    rfl
  have hsplit : splitLine (typed (line :: rest)) =
      (line.toUTF8.data.toList ++ [lineFeed], typed rest) := by
    rw [typed, List.flatMap_cons, List.append_assoc]
    exact splitLine_append (lineFeed_notMem_toUTF8 h.1) (typed rest)
  simp only [readLine, hsplit, hbytes, decode?_toUTF8]
  rw [String.toList_append]
  show (Except.ok (String.ofList (dropLineEnd (line.toList ++ ['\n']))), _) = _
  rw [dropLineEnd_append h.1 h.2, String.ofList_toList]

end Stream

/-! ## What a console was asked for -/

/-- A request to a console: to show a line, or to show a prompt and give a line, which it does
unless it fails. -/
inductive Event where
  | wrote (line : String)
  | asked (prompt : String) (given : Option String)
deriving DecidableEq, Repr

namespace Event

/-- What a terminal shows of a request. -/
def text : Event → String
  | wrote line => line ++ "\n"
  | asked prompt _ => prompt

/-- The line that was shown. -/
def line? : Event → Option String
  | wrote line => some line
  | asked _ _ => none

/-- The prompt that was shown. -/
def prompt? : Event → Option String
  | wrote _ => none
  | asked prompt _ => some prompt

end Event

/-- A console that writes down what it was asked for. -/
structure Traced (κ : Type) where
  console : κ
  events : List Event

instance [Console κ] : Console (Traced κ) where
  writeLine c s :=
    ((Console.writeLine c.console s).1, ⟨(Console.writeLine c.console s).2, c.events ++ [.wrote s]⟩)
  readLine c prompt :=
    ((Console.readLine c.console prompt).1, ⟨(Console.readLine c.console prompt).2,
      c.events ++ [.asked prompt (Console.readLine c.console prompt).1.toOption]⟩)

theorem Traced.readLine_of [Console κ] {c c' : κ} {prompt : String} {r : Except String String}
    (h : Console.readLine c prompt = (r, c')) (events : List Event) :
    Console.readLine (⟨c, events⟩ : Traced κ) prompt =
      (r, ⟨c', events ++ [.asked prompt r.toOption]⟩) := by
  show ((Console.readLine c prompt).1, _) = _
  rw [h]

/-- The machine on a console that writes down what it is asked for from now on. -/
def Machine.traced (m : Machine κ) : Machine (Traced κ) := m.on ⟨m.console, []⟩

/-- The simulation of a run that is written down by the same run. -/
def Simulation.traced (κ : Type) [Console κ] : Simulation Fragment.whole (Traced κ) κ :=
  ofConsoles Fragment.whole (fun t c => t.console = c) (fun _ _ _ => False)
    (by
      rintro t _ rfl s
      exact .same rfl)
    (by
      rintro t _ rfl prompt
      exact .same rfl)
    (fun h _ => h) (fun h _ => h)

/-- A second run that is past the first one has stopped it. -/
theorem Simulation.Alone.stopped {κ' α : Type} [Console κ] [Console κ']
    {S : Simulation Fragment.whole κ κ'} {A : α → Prop} {fault : Fault} {m : Machine κ}
    {o : Outcome κ' α} (h : S.Alone A fault m o) : ∃ c', S.Stopped fault m.console c' := by
  cases h with
  | done _ h => exact ⟨_, h.stopped⟩
  | failed h => exact ⟨_, h.stopped⟩
  | panicked h => exact ⟨_, h⟩
  | outOfFuel h => exact ⟨_, h.stopped⟩

namespace Eval

/-- Of two runs of which the first is not stopped, the second ends if the first one does, in the
same way. -/
theorem goes_with_of_after {κ' : Type} [Console κ] [Console κ'] {S : Simulation Fragment.whole κ κ'}
    {α : Type} {A : α → Prop} {o : Outcome κ α} {o' : Outcome κ' α} (h : S.After A o o')
    {m : Machine κ} (hend : o.machine? = some m)
    (hstopped : ∀ fault c', ¬ S.Stopped fault m.console c') :
    ∃ m', o'.machine? = some m' ∧ S.Coupled m m' ∧ o.fault? = o'.fault? := by
  cases h with
  | @done _ _ m' _ h =>
    obtain rfl := Option.some.inj hend
    exact ⟨m', rfl, h, rfl⟩
  | @failed _ _ m' h =>
    obtain rfl := Option.some.inj hend
    exact ⟨m', rfl, h, rfl⟩
  | panicked => cases hend
  | outOfFuel => cases hend
  | stopped h =>
    obtain rfl := Option.some.inj hend
    obtain ⟨c', h⟩ := h.stopped
    exact absurd h (hstopped _ c')

/-- **To write down what a run asks for does not change it.** -/
theorem untraced_lines [Console κ] (fuel : Nat) (source : List String) (m : Machine κ) :
    (lines fuel source m.traced).mapConsole Traced.console = lines fuel source m := by
  have hstart : (Simulation.traced κ).Coupled m.traced m :=
    ⟨rfl, rfl, rfl, rfl, rfl, rfl, Machine.carries_whole _⟩
  have hafter := (whole_lines (Simulation.traced κ) fuel source).live hstart
  -- what is written down is no part of the machine
  have hon : ∀ {t : Machine (Traced κ)} {m' : Machine κ}, (Simulation.traced κ).Coupled t m' →
      t.on t.console.console = m' := by
    intro t m' h
    have hconsole : t.console.console = m'.console := h.console
    rw [hconsole]
    exact (eq_on h.globals.symm h.scope.symm h.depth.symm h.echo.symm h.draws.symm).symm
  generalize lines fuel source m.traced = o, lines fuel source m = o' at hafter ⊢
  cases hafter with
  | done _ h => exact congrArg (Outcome.done _) (hon h)
  | failed h => exact congrArg (Outcome.failed _) (hon h)
  | panicked h => exact congrArg (Outcome.panicked _ _) h
  | outOfFuel => rfl
  | stopped h =>
    obtain ⟨_, h⟩ := h.stopped
    exact h.elim

/-- What a run asks its console for, in this order; nothing if it does not end. -/
def eventsOf [Console κ] (fuel : Nat) (source : List String) (m : Machine κ) :
    Option (List Event) :=
  (lines fuel source m.traced).machine?.map fun t => t.console.events

end Eval

/-! ## A buffer and the streams -/

/-- What a terminal shows of requests. -/
def Event.shown (events : List Event) : String := String.join (events.map Event.text)

/-- A buffer and streams that were asked for the same. The same lines are left to be read, which are
`n` with those that the buffer was asked for. -/
structure Traced.Alike (n : Nat) (b : Traced Buffer) (t : Traced Stream) : Prop where
  events : b.events = t.events
  written : b.console.written.toList = b.events.filterMap Event.line?
  prompts : b.console.prompts.toList = b.events.filterMap Event.prompt?
  shown : t.console.shown = Event.shown b.events
  input : t.console.input = Stream.typed b.console.input
  unbroken : ∀ line ∈ b.console.input, Unbroken line
  unlimited : b.console.writesLeft = none
  asked : b.console.prompts.size + b.console.input.length = n

namespace Traced.Alike

/-- A request adds its text to what is shown. -/
theorem shown_concat (events : List Event) (e : Event) :
    Event.shown (events ++ [e]) = Event.shown events ++ e.text := by
  simp [Event.shown]

/-- Both consoles take the line, and write down the same request. -/
theorem writeLine {n : Nat} {b : Traced Buffer} {t : Traced Stream} (h : Alike n b t) (s : String) :
    (Console.writeLine b s).1 = (Console.writeLine t s).1 ∧
      Alike n (Console.writeLine b s).2 (Console.writeLine t s).2 := by
  obtain ⟨⟨written, prompts, input, left⟩, events⟩ := b
  obtain ⟨⟨shown, bytes⟩, events'⟩ := t
  obtain ⟨hevents, hwritten, hprompts, hshown, hinput, hunbroken, hleft, hasked⟩ := h
  -- both consoles are known from the requests so far
  obtain rfl : events = events' := hevents
  obtain rfl : shown = Event.shown events := hshown
  obtain rfl : bytes = Stream.typed input := hinput
  obtain rfl : left = none := hleft
  refine ⟨rfl, rfl, ?_, ?_, ?_, rfl, hunbroken, rfl, hasked⟩
  · show (written.push s).toList = (events ++ [Event.wrote s]).filterMap Event.line?
    rw [Array.toList_push, List.filterMap_append, hwritten]
    rfl
  · show prompts.toList = (events ++ [Event.wrote s]).filterMap Event.prompt?
    rw [List.filterMap_append, hprompts]
    exact (List.append_nil _).symm
  · show Event.shown events ++ s ++ "\n" = Event.shown (events ++ [.wrote s])
    rw [shown_concat, String.append_assoc]
    rfl

/-- Both consoles give the line that is next, unless the buffer has none left. -/
theorem readLine {n : Nat} {b : Traced Buffer} {t : Traced Stream} (h : Alike n b t)
    (prompt : String) :
    (Console.readLine b prompt).1 = .error "no more input" ∧
        n < (Console.readLine b prompt).2.console.prompts.size ∨
      (Console.readLine b prompt).1 = (Console.readLine t prompt).1 ∧
        Alike n (Console.readLine b prompt).2 (Console.readLine t prompt).2 := by
  obtain ⟨⟨written, prompts, input, left⟩, events⟩ := b
  obtain ⟨⟨shown, bytes⟩, events'⟩ := t
  obtain ⟨hevents, hwritten, hprompts, hshown, hinput, hunbroken, hleft, hasked⟩ := h
  obtain rfl : events = events' := hevents
  obtain rfl : shown = Event.shown events := hshown
  obtain rfl : bytes = Stream.typed input := hinput
  cases input with
  | nil =>
    -- the prompt is recorded, so the buffer was asked once more than there were lines
    refine Or.inl ⟨rfl, ?_⟩
    show n < (prompts.push prompt).size
    rw [Array.size_push]
    exact Nat.lt_succ_of_le (Nat.le_of_eq hasked.symm)
  | cons line rest =>
    obtain ⟨hline, hrest⟩ := List.forall_mem_cons.1 hunbroken
    have hstream := Stream.readLine_typed hline rest (Event.shown events) prompt
    have htraced := Traced.readLine_of (κ := Stream) hstream events
    rw [htraced]
    refine Or.inr ⟨rfl, rfl, ?_, ?_, ?_, rfl, hrest, hleft, ?_⟩
    · show written.toList = (events ++ [Event.asked prompt line]).filterMap Event.line?
      rw [List.filterMap_append, hwritten]
      exact (List.append_nil _).symm
    · show (prompts.push prompt).toList =
        (events ++ [Event.asked prompt line]).filterMap Event.prompt?
      rw [Array.toList_push, List.filterMap_append, hprompts]
      rfl
    · show Event.shown events ++ prompt = Event.shown (events ++ [Event.asked prompt line])
      rw [shown_concat]
      rfl
    · show (prompts.push prompt).size + rest.length = n
      rw [Array.size_push, Nat.add_right_comm]
      exact hasked

end Traced.Alike

/-- The simulation of a run on a buffer by one on streams, until a line is read past the last. -/
def Simulation.streamed (n : Nat) : Simulation Fragment.whole (Traced Buffer) (Traced Stream) :=
  ofConsoles Fragment.whole (Traced.Alike n) (fun _ b _ => n < b.console.prompts.size)
    (by
      intro b t h s
      obtain ⟨hsame, hafter⟩ := h.writeLine s
      rw [← Prod.eta (Console.writeLine b s), hsame]
      exact .same hafter)
    (by
      intro b t h prompt
      rcases h.readLine prompt with ⟨hrefused, hpast⟩ | ⟨hsame, hafter⟩
      · rw [← Prod.eta (Console.readLine b prompt), hrefused]
        exact .stopped fun _ => hpast
      · rw [← Prod.eta (Console.readLine b prompt), hsame]
        exact .same hafter)
    (fun h _ => h) (fun h _ => h)

namespace CommandLine

open Eval

/-- What a run leaves behind that shows this text, fails with this fault if it fails, and has this
text logged. -/
def Ending.ofRun (source : List String) (shown logged : String) : Option Fault → Ending
  | none => ⟨shown, logged, 0⟩
  | some fault => ⟨shown, logged ++ (fault.diagnostic.report source ++ "\n"), 1⟩

/-- A script leaves behind what its run does. -/
theorem script_eq {fuel : Nat} {env : Environment} {echo : Bool} {input : List UInt8}
    {text : String} {m : Machine Stream}
    (h : (lines fuel (Text.lines text)
      (Machine.start (⟨"", input⟩ : Stream) echo env.draws)).machine? = some m) :
    script fuel env echo input text =
      some (.ofRun (Text.lines text) m.console.shown (env.log.written 0)
        (lines fuel (Text.lines text)
          (Machine.start (⟨"", input⟩ : Stream) echo env.draws)).fault?) := by
  simp only [script]
  generalize lines fuel (Text.lines text) (Machine.start (⟨"", input⟩ : Stream) echo env.draws) = o
    at h ⊢
  cases o with
  | done _ m' =>
    obtain rfl := Option.some.inj h
    rfl
  | failed fault m' =>
    obtain rfl := Option.some.inj h
    rfl
  | panicked => cases h
  | outOfFuel => cases h

/-- The arguments ask for a script with this text: it is an argument, or the content of a file. -/
def AsksFor (env : Environment) (arguments : List String) (echo : Bool) (text : String) : Prop :=
  env.arguments arguments = .ok ⟨false, echo, some text⟩ ∨
    ∃ path, env.arguments arguments = .ok ⟨true, echo, some path⟩ ∧
      (env.files path).text = .ok text

/-- Arguments that ask for a script run it. -/
theorem run_of_asksFor {env : Environment} {arguments : List String} {echo : Bool} {text : String}
    (h : AsksFor env arguments echo text) (fuel : Nat) (input : List UInt8) :
    run fuel env input arguments = script fuel env echo input text := by
  rcases h with h | ⟨path, h, htext⟩
  · simp only [run, h]
  · simp only [run, h, htext]

/-- **A script does on the standard streams what it does on a buffer.** Take any text, any lines
that are typed in, and a run of the text on a buffer with these lines that ends and reads no more of
them than there are. On the streams, where a line feed follows each line, the run makes the same
requests in the same order and is given the same lines. It ends in the same way with the same
machine, but for the console, and leaves the same lines unread.

In every environment in which the arguments come to the text, the standard output is each line that
was shown, with a line feed, and each prompt as it is, in this order. What was logged goes to the
standard error. Without a fault the exit status is 0 and nothing else is on the standard error; with
a fault the status is 1, and its report with a line feed follows. If the log was not asked for, it
is empty. -/
theorem script_refines_buffer (fuel : Nat) (text : String) (echo : Bool) (draws : Draws)
    (input : List String) (hinput : ∀ line ∈ input, Unbroken line) (full : Machine Buffer)
    (hfull : (lines fuel (Text.lines text)
      (Machine.start (Buffer.withInput input none) echo draws)).machine? = some full)
    (hfew : full.console.prompts.size ≤ input.length) :
    let source := Text.lines text
    let onBuffer : Machine Buffer := Machine.start (Buffer.withInput input none) echo draws
    let onStreams : Machine Stream := Machine.start ⟨"", Stream.typed input⟩ echo draws
    ∃ events m,
      eventsOf fuel source onBuffer = some events ∧
      full.console.written.toList = events.filterMap Event.line? ∧
      full.console.prompts.toList = events.filterMap Event.prompt? ∧
      eventsOf fuel source onStreams = some events ∧
      (lines fuel source onStreams).machine? = some m ∧
      (lines fuel source onStreams).fault? = (lines fuel source onBuffer).fault? ∧
      m = full.on ⟨Event.shown events, Stream.typed full.console.input⟩ ∧
      ∀ (env : Environment) (arguments : List String),
        env.draws = draws → AsksFor env arguments echo text →
          run fuel env (Stream.typed input) arguments =
              some (.ofRun source (Event.shown events) (env.log.written 0)
                (lines fuel source onBuffer).fault?) ∧
            (env.log.asked = none →
              run fuel env (Stream.typed input) arguments =
                some (.ofRun source (Event.shown events) ""
                  (lines fuel source onBuffer).fault?)) := by
  intro source onBuffer onStreams
  obtain ⟨b, hb, rfl⟩ : ∃ b, (lines fuel source onBuffer.traced).machine? = some b ∧
      b.on b.console.console = full := by
    rw [← untraced_lines, Outcome.machine?_mapConsole] at hfull
    exact Option.map_eq_some_iff.1 hfull
  have hstart : (Simulation.streamed input.length).Coupled onBuffer.traced onStreams.traced :=
    ⟨rfl, rfl, rfl, rfl, ⟨rfl, rfl, rfl, rfl, rfl, hinput, rfl, Nat.zero_add _⟩, rfl,
      Machine.carries_whole _⟩
  obtain ⟨t, ht, h, hsame⟩ := goes_with_of_after
    ((whole_lines (Simulation.streamed input.length) fuel source).live hstart) hb
    (fun _ _ => Nat.not_lt_of_le hfew)
  have halike : Traced.Alike input.length b.console t.console := h.console
  -- what the traced runs say of the runs themselves
  have hend : (lines fuel source onStreams).machine? = some (t.on t.console.console) := by
    rw [← untraced_lines, Outcome.machine?_mapConsole, ht]
    rfl
  have hfault : (lines fuel source onStreams).fault? = (lines fuel source onBuffer).fault? := by
    rw [← untraced_lines, ← untraced_lines fuel source onBuffer, Outcome.fault?_mapConsole,
      Outcome.fault?_mapConsole, hsame]
  have hconsole : t.console.console =
      ⟨Event.shown b.console.events, Stream.typed b.console.console.input⟩ := by
    rw [← halike.shown, ← halike.input]
  have hon := eq_on h.globals.symm h.scope.symm h.depth.symm h.echo.symm h.draws.symm
  refine ⟨b.console.events, t.on t.console.console, ?_, halike.written, halike.prompts, ?_, hend,
    hfault, ?_, ?_⟩
  · rw [eventsOf, hb]
    rfl
  · rw [eventsOf, ht]
    exact congrArg some halike.events.symm
  · show t.on t.console.console =
      b.on ⟨Event.shown b.console.events, Stream.typed b.console.console.input⟩
    rw [← hconsole]
    exact congrArg (fun m => m.on t.console.console) hon
  · rintro env arguments rfl hasks
    have hrun : run fuel env (Stream.typed input) arguments =
        some (.ofRun source (Event.shown b.console.events) (env.log.written 0)
          (lines fuel source onBuffer).fault?) := by
      rw [run_of_asksFor hasks, script_eq hend, hfault]
      exact congrArg (fun shown => some (Ending.ofRun source shown _ _)) halike.shown
    exact ⟨hrun, fun hquiet => by rw [hrun, env.log.quiet hquiet]⟩

/-- A script that asks for its one line, shows it and a sum, and fails in its last line. It is run
with the arguments read as they are on the command line. -/
theorem script_refines_buffer_undeclared :
    let text := "name = input(\"? \")\nprint(name)\n1 + 1\nprint(y)"
    let onBuffer : Machine Buffer := Machine.start (Buffer.withInput ["ab"] none) true .lowest
    let env : Environment :=
      { Shell.environment 0 fun _ => .missing with draws := .lowest }
    (∀ line ∈ ["ab"], Unbroken line) ∧
      ∃ full, (lines 30 (Text.lines text) onBuffer).machine? = some full ∧
        full.console.prompts.size ≤ ["ab"].length ∧
        AsksFor env ["--echo", "--", text] true text ∧ env.log.asked = none ∧
        run 30 env (Stream.typed ["ab"]) ["--echo", "--", text] =
          some ⟨"? ab\n2\n", " ! ERROR\nIdentifier Error: 'y' has not been declared " ++
            "(line 4, column 7)\nprint(y)\n      ^\n", 1⟩ := by
  intro text onBuffer env
  have hinput : ∀ line ∈ ["ab"], Unbroken line := by decide
  have hasked : (lines 30 (Text.lines text) onBuffer).machine?.map
      (fun full => full.console.prompts.size) = some 1 := by decide +kernel
  have hevents : eventsOf 30 (Text.lines text) onBuffer =
      some [.asked "? " (some "ab"), .wrote "ab", .wrote "2"] := by decide +kernel
  have hfault : (lines 30 (Text.lines text) onBuffer).fault? =
      some ⟨.undeclared "y", ⟨3, 6⟩⟩ := by decide +kernel
  obtain ⟨full, hfull, hsize⟩ := Option.map_eq_some_iff.1 hasked
  have hfew : full.console.prompts.size ≤ ["ab"].length := Nat.le_of_eq hsize
  obtain ⟨events, m, hsame, -, -, -, -, -, -, hrun⟩ :=
    script_refines_buffer 30 text true .lowest ["ab"] hinput full hfull hfew
  obtain rfl := Option.some.inj (hsame.symm.trans hevents)
  have hasks : AsksFor env ["--echo", "--", text] true text := Or.inl rfl
  refine ⟨hinput, full, hfull, hfew, hasks, rfl, ?_⟩
  rw [(hrun env _ rfl hasks).2 rfl]
  show some (Ending.ofRun _ _ _ (lines 30 (Text.lines text) onBuffer).fault?) = _
  rw [hfault]
  decide +kernel

end CommandLine

end Primer
