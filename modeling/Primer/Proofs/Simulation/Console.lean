import Primer.Proofs.Footprint.Calls
import Primer.Proofs.Requests
import Primer.Proofs.Session.Agreement
import Primer.Proofs.Simulation

/-!
# A console that fails stops the run

A console can refuse a line to show, and run out of lines to read. Either ends the run at once: no
part of the evaluator catches the fault and goes on. So a run on a console that fails is a first
part of the run on one that does not.

For a console that refuses lines to show, the two runs are related step by step. Up to the failure
both do the same (`Buffer.Keeps`), and what the other run does from there on adds to what it has
shown (`Buffer.Outgrown`). For one that runs out of lines to read, the other run is followed, and
the run that fails has done what the followed one has when it asks for the line that is missing
(`Asks`).
-/

set_option autoImplicit false

namespace Primer

variable {κ κ' : Type}

/-- A console that behaves as the buffer that it is viewed as, and says `text` when it refuses a
line. -/
structure Console.Records [Console κ] (view : κ → Buffer) (text : String) : Prop where
  written (c : κ) (s : String) :
    (Console.writeLine c s).1 = (if (view c).writesLeft = some 0 then .error text else .ok ()) ∧
      view (Console.writeLine c s).2 = ((view c).writeLine s).2
  taken (c : κ) (prompt : String) :
    (Console.readLine c prompt).1 = ((view c).readLine prompt).1 ∧
      view (Console.readLine c prompt).2 = ((view c).readLine prompt).2

/-- A buffer is viewed as itself. -/
theorem Buffer.records : Console.Records (κ := Buffer) id "write failed" where
  written := by
    rintro ⟨written, prompts, input, _ | _ | n⟩ s
    · exact ⟨rfl, rfl⟩
    · exact ⟨rfl, rfl⟩
    · exact ⟨rfl, rfl⟩
  taken _ _ := ⟨rfl, rfl⟩

namespace Buffer

/-! ## Writes that fail -/

/-- Two buffers that have taken the same lines so far. The first takes `n` in all, the second any
number. -/
structure Keeps (n : Nat) (b b' : Buffer) : Prop where
  written : b.written = b'.written
  prompts : b.prompts = b'.prompts
  input : b.input = b'.input
  left : ∃ left, b.writesLeft = some left ∧ b'.written.size + left = n
  unlimited : b'.writesLeft = none

/-- The first buffer has taken all the lines that it takes, and the second has taken more. -/
structure Outgrown (n : Nat) (b b' : Buffer) : Prop where
  written : b.written.toList <+: b'.written.toList
  full : b.written.size = n
  more : n < b'.written.size
  unlimited : b'.writesLeft = none

/-- A buffer without a limit takes every line. -/
theorem writeLine_of_unlimited {b : Buffer} (h : b.writesLeft = none) (s : String) :
    b.writeLine s = (.ok (), { b with written := b.written.push s }) := by
  obtain ⟨written, prompts, input, left⟩ := b
  obtain rfl : left = none := h
  rfl

/-- The second buffer goes on to take lines that the first one has no room for. -/
theorem Outgrown.writeLine {n : Nat} {b b' : Buffer} (h : Outgrown n b b') (s : String) :
    Outgrown n b (b'.writeLine s).2 := by
  rw [writeLine_of_unlimited h.unlimited]
  refine ⟨?_, h.full, ?_, h.unlimited⟩
  · simpa using h.written.trans (List.prefix_append _ _)
  · simpa using Nat.lt_succ_of_lt h.more

theorem Outgrown.readLine {n : Nat} {b b' : Buffer} (h : Outgrown n b b') (prompt : String) :
    Outgrown n b (b'.readLine prompt).2 := by
  obtain ⟨written, prompts, input, left⟩ := b'
  cases input with
  | nil => exact ⟨h.written, h.full, h.more, h.unlimited⟩
  | cons s rest => exact ⟨h.written, h.full, h.more, h.unlimited⟩

/-- The first buffer takes the line as the second one does, or it was full. -/
theorem Keeps.writeLine {n : Nat} {b b' : Buffer} (h : Keeps n b b') (s : String) :
    b.writesLeft = some 0 ∧ Outgrown n (b.writeLine s).2 (b'.writeLine s).2 ∨
      b.writesLeft ≠ some 0 ∧ Keeps n (b.writeLine s).2 (b'.writeLine s).2 := by
  obtain ⟨left, hleft, hsum⟩ := h.left
  rw [writeLine_of_unlimited h.unlimited]
  obtain ⟨written, prompts, input, limit⟩ := b
  obtain rfl : limit = some left := hleft
  obtain rfl : written = b'.written := h.written
  cases left with
  | zero =>
    -- no room is left: the line goes to the second buffer only
    refine Or.inl ⟨rfl, ?_, hsum, ?_, h.unlimited⟩
    · simp [Buffer.writeLine]
    · simp only [Array.size_push]
      omega
  | succ left =>
    refine Or.inr ⟨by simp, rfl, h.prompts, h.input, ⟨left, rfl, ?_⟩, h.unlimited⟩
    simp only [Array.size_push]
    omega

theorem Keeps.readLine {n : Nat} {b b' : Buffer} (h : Keeps n b b') (prompt : String) :
    (b.readLine prompt).1 = (b'.readLine prompt).1 ∧
      Keeps n (b.readLine prompt).2 (b'.readLine prompt).2 := by
  obtain ⟨written, prompts, input, left⟩ := b
  obtain ⟨written', prompts', input', left'⟩ := b'
  obtain ⟨hwritten, hprompts, hinput, hleft, hunlimited⟩ := h
  cases hprompts
  cases hinput
  cases input with
  | nil => exact ⟨rfl, hwritten, rfl, rfl, hleft, hunlimited⟩
  | cons s rest => exact ⟨rfl, hwritten, rfl, rfl, hleft, hunlimited⟩

end Buffer

/-- The simulation of a run whose writes fail after `n` lines by one whose writes never fail. -/
def Simulation.limited [Console κ] {view : κ → Buffer} {text : String}
    (hκ : Console.Records view text) (n : Nat) : Simulation Fragment.whole κ Buffer :=
  ofConsoles Fragment.whole (fun c b => Buffer.Keeps n (view c) b)
    (fun fault c b => fault.cause = .console text ∧ Buffer.Outgrown n (view c) b)
    (by
      intro c b h s
      obtain ⟨hanswer, hview⟩ := hκ.written c s
      generalize Console.writeLine c s = given at hanswer hview
      obtain ⟨r, c'⟩ := given
      have hwrite : (Console.writeLine b s) = (.ok (), (b.writeLine s).2) := by
        show b.writeLine s = _
        rw [Buffer.writeLine_of_unlimited h.unlimited]
      rw [hwrite]
      rcases h.writeLine s with ⟨hfull, hafter⟩ | ⟨hroom, hafter⟩
      · obtain rfl : r = .error text := by simpa [hfull] using hanswer
        exact .stopped fun pos => ⟨rfl, by rw [hview]; exact hafter⟩
      · obtain rfl : r = .ok () := by simpa [hroom] using hanswer
        exact .same (by rw [hview]; exact hafter))
    (by
      intro c b h prompt
      obtain ⟨hanswer, hview⟩ := hκ.taken c prompt
      obtain ⟨hsame, hafter⟩ := h.readLine prompt
      generalize Console.readLine c prompt = given at hanswer hview
      obtain ⟨r, c'⟩ := given
      obtain rfl : r = (b.readLine prompt).1 := hanswer.trans hsame
      exact .same (by rw [hview]; exact hafter))
    (fun h s => ⟨h.1, h.2.writeLine s⟩) (fun h prompt => ⟨h.1, h.2.readLine prompt⟩)

namespace Eval

/-! ## Runs -/

/-- Machines that agree but for the console are one machine on two consoles. -/
theorem eq_on {m : Machine κ} {m' : Machine κ'} (hglobals : m.globals = m'.globals)
    (hscope : m.scope = m'.scope) (hdepth : m.depth = m'.depth) (hecho : m.echo = m'.echo)
    (hdraws : m.draws = m'.draws) : m = m'.on m.console := by
  obtain ⟨globals, scope, depth, echo, console, draws⟩ := m
  cases hglobals
  cases hscope
  cases hdepth
  cases hecho
  cases hdraws
  rfl

/-- A run is as deep in calls at its end as at its start. -/
theorem depth_lines [Console κ] (fuel : Nat) (source : List String) {m m' : Machine κ}
    (h : (lines fuel source m).machine? = some m') : m'.depth = m.depth :=
  (((Footprint.calls κ fun _ => true).within_lines fuel source m m.meets_true).machine h).2.depth

theorem whole_lines [Console κ] [Console κ'] (S : Simulation Fragment.whole κ κ') (fuel : Nat)
    (source : List String) :
    S.Matches (fun _ => True) (lines fuel source) (lines fuel source) :=
  S.matches_lines fuel fun p _ => Stmt.allOf_true p.statements

/-- If the second run ends, so does the first: in the same way, or with the fault that stopped
it. -/
theorem ends_of_after [Console κ] [Console κ'] {S : Simulation Fragment.whole κ κ'} {α : Type}
    {A : α → Prop} {o : Outcome κ α} {o' : Outcome κ' α} (h : S.After A o o') {full : Machine κ'}
    (hfull : o'.machine? = some full) :
    ∃ m, o.machine? = some m ∧ (S.Coupled m full ∧ o.fault? = o'.fault? ∨
      ∃ fault, o.fault? = some fault ∧ S.Past fault m full) := by
  cases h with
  | @done _ m _ _ h =>
    obtain rfl := Option.some.inj hfull
    exact ⟨m, rfl, Or.inl ⟨h, rfl⟩⟩
  | @failed _ m _ h =>
    obtain rfl := Option.some.inj hfull
    exact ⟨m, rfl, Or.inl ⟨h, rfl⟩⟩
  | panicked => cases hfull
  | outOfFuel => cases hfull
  | @stopped fault m _ h =>
    refine ⟨m, rfl, Or.inr ⟨fault, rfl, ?_⟩⟩
    cases h with
    | done _ h =>
      obtain rfl := Option.some.inj hfull
      exact h
    | failed h =>
      obtain rfl := Option.some.inj hfull
      exact h
    | panicked h => cases hfull
    | outOfFuel h => cases hfull

section Limited

variable [Console κ] {view : κ → Buffer} {text : String} (hκ : Console.Records view text)

/-- While the runs are side by side, there was room for all lines. -/
theorem limited_coupled {m : Machine κ} {full : Machine Buffer} {n : Nat}
    (h : (Simulation.limited hκ n).Coupled m full) :
    full.console.written.size ≤ n ∧ (view m.console).written = full.console.written ∧
      (view m.console).prompts = full.console.prompts ∧ m.on full.console = full := by
  have hkeeps : Buffer.Keeps n (view m.console) full.console := h.console
  obtain ⟨left, -, hsum⟩ := hkeeps.left
  have hon := eq_on h.globals.symm h.scope.symm h.depth.symm h.echo.symm h.draws.symm
  exact ⟨by omega, hkeeps.written, hkeeps.prompts, hon.symm⟩

/-- What a run whose writes fail after `n` lines comes to, next to one whose writes never fail. -/
structure StopsWriting (view : κ → Buffer) (text : String) (n : Nat) (o : Outcome κ Unit)
    (m : Machine κ) (o' : Outcome Buffer Unit) (full : Machine Buffer) : Prop where
  written : (view m.console).written.toList = full.console.written.toList.take n
  same (h : full.console.written.size ≤ n) : o.fault? = o'.fault? ∧
    m.on full.console = full ∧ (view m.console).prompts = full.console.prompts
  stopped (h : n < full.console.written.size) :
    ∃ fault, o.fault? = some fault ∧ fault.cause = .console text

include hκ

/-- A run on a console that takes `n` lines is the other one, or has stopped at a line. -/
theorem lines_limited {fuel : Nat} {source input : List String} {n : Nat} {m : Machine κ}
    (hm : view m.console = Buffer.withInput input (some n)) {full : Machine Buffer}
    (hfull : (lines fuel source (m.on (Buffer.withInput input none))).machine? = some full) :
    ∃ m', (lines fuel source m).machine? = some m' ∧
      StopsWriting view text n (lines fuel source m) m'
        (lines fuel source (m.on (Buffer.withInput input none))) full := by
  have hstart : (Simulation.limited hκ n).Coupled m (m.on (Buffer.withInput input none)) := by
    refine ⟨rfl, rfl, rfl, rfl, ?_, rfl, Machine.carries_whole _⟩
    show Buffer.Keeps n (view m.console) (Buffer.withInput input none)
    rw [hm]
    exact ⟨rfl, rfl, rfl, ⟨n, rfl, Nat.zero_add n⟩, rfl⟩
  obtain ⟨m', hend, ⟨h, hfault⟩ | ⟨fault, hfault, h⟩⟩ :=
    ends_of_after ((whole_lines (Simulation.limited hκ n) fuel source).live hstart) hfull
  · -- no line was refused, so there was room for all of them
    obtain ⟨hsize, hwritten, hprompts, hon⟩ := limited_coupled hκ h
    refine ⟨m', hend, ?_, fun _ => ⟨hfault, hon, hprompts⟩, fun hmore => absurd hsize (by omega)⟩
    rw [hwritten, List.take_of_length_le]
    simpa using hsize
  · -- a line was refused, and the other run has shown it
    obtain ⟨hcause, houtgrown⟩ := h.stopped
    refine ⟨m', hend, ?_, fun hsize => absurd houtgrown.more (by omega), fun _ => ?_⟩
    · rw [List.prefix_iff_eq_take.1 houtgrown.written, Array.length_toList, houtgrown.full]
    · exact ⟨fault, hfault, hcause⟩

end Limited

section Cut

variable {fuel : Nat} {source : List String} {m : Machine Buffer} {c : Buffer} {k : Nat}

/-- A run that ends makes one request for each prompt that it adds. -/
theorem length_requests (hends : (lines fuel source m).console? = some c) :
    c.prompts.size = m.console.prompts.size + (requests fuel source m).length :=
  ((asks_lines fuel source m (by simp [hends])).asked hends).count

/-- A run that ends is the same without the lines that it does not ask for. -/
theorem lines_cut (hends : (lines fuel source m).console? = some c)
    (hk : m.console.input.length ≤ k ∨ (requests fuel source m).length ≤ k) :
    lines fuel source (m.cut k) = (lines fuel source m).mapConsole fun b =>
      b.cut (k - (requests fuel source m).length) := by
  have hasks := asks_lines fuel source m (by simp [hends])
  by_cases hfew : (requests fuel source m).length ≤ k
  · exact hasks.enough hfew
  · -- the whole input is taken, and the run leaves nothing of it
    have hall : m.console.input.length ≤ k := hk.resolve_right hfew
    have hnone : c.input = [] := by
      rw [(hasks.asked hends).input]
      exact List.drop_of_length_le (by omega)
    have hsame : m.cut k = m := by
      show m.on { m.console with input := m.console.input.take k } = m
      rw [List.take_of_length_le hall]
      rfl
    have hcut : c.cut (k - (requests fuel source m).length) = c := by
      obtain ⟨written, prompts, input, left⟩ := c
      obtain rfl : input = [] := hnone
      simp [Buffer.cut]
    rw [hsame, Outcome.mapConsole_eq_self hends hcut]

end Cut

/-- **A console that fails stops the run at once, and changes nothing before.**

Take a run that ends, on a console whose writes never fail. On a console that takes `n` lines and
refuses every later one, the run shows the first `n` lines of those that it would show. If there are
no more, it ends in the same way, with the same machine and the same prompts. If there are more, it
ends with the fault that the console gives, as deep in calls as it began.

Take a run that ends, and follow it. This does not change it, and notes a request for each prompt.
With the input cut to its first `k` lines, the run is the same if it never asks for another one:
only the lines that were cut are not left to be read. If it does, it ends with the fault that there
is no more input, as deep in calls as it began. The global table, the lines shown and the prompts
are then those of the longer run at its request number `k`, counted from zero, and the prompt of
this request is added. -/
theorem console_failures_stop (fuel : Nat) (source input : List String) :
    (∀ (κ : Type) [Console κ] (view : κ → Buffer) (text : String), Console.Records view text →
      ∀ (n : Nat) (m : Machine κ), view m.console = Buffer.withInput input (some n) →
      ∀ full : Machine Buffer,
        (lines fuel source (m.on (Buffer.withInput input none))).machine? = some full →
      ∃ m', (lines fuel source m).machine? = some m' ∧
        (view m'.console).written.toList = full.console.written.toList.take n ∧
        (full.console.written.size ≤ n →
          (lines fuel source m).fault? =
              (lines fuel source (m.on (Buffer.withInput input none))).fault? ∧
            m'.on full.console = full ∧ (view m'.console).prompts = full.console.prompts) ∧
        (n < full.console.written.size →
          ∃ fault, (lines fuel source m).fault? = some fault ∧
            fault.diagnostic = ⟨.evaluation, "Console error: " ++ text, fault.position⟩ ∧
            m'.depth = m.depth)) ∧
    ∀ (κ : Type) (m : Machine κ) (left : Option Nat) (k : Nat) (c : Buffer),
      let whole := m.on (Buffer.withInput input left)
      let short := m.on (Buffer.withInput (input.take k) left)
      (lines fuel source whole).console? = some c →
        lines fuel source (m.on (⟨Buffer.withInput input left, []⟩ : Followed)) =
            (lines fuel source whole).mapConsole (fun b => ⟨b, requests fuel source whole⟩) ∧
        (requests fuel source whole).length = c.prompts.size ∧
        (input.length ≤ k ∨ c.prompts.size ≤ k →
          lines fuel source short =
            (lines fuel source whole).mapConsole fun b => b.cut (k - c.prompts.size)) ∧
        (k < input.length → k < c.prompts.size →
          ∃ fault m' r, lines fuel source short = .failed fault m' ∧
            fault.diagnostic = ⟨.evaluation, "Console error: no more input", fault.position⟩ ∧
            m'.depth = m.depth ∧
            (requests fuel source whole)[k]? = some r ∧
            m'.globals = r.machine.globals ∧
            m'.console.written = r.machine.console.written ∧
            m'.console.prompts = r.machine.console.prompts.push r.prompt ∧
            m'.console.prompts.size = k + 1 ∧
            m'.console.written.toList <+: c.written.toList ∧
            m'.console.prompts.toList <+: c.prompts.toList) := by
  constructor
  · intro κ _ view text hκ n m hm full hfull
    obtain ⟨m', hend, h⟩ := lines_limited hκ hm hfull
    refine ⟨m', hend, h.written, h.same, fun hmore => ?_⟩
    obtain ⟨⟨cause, pos⟩, hfault, rfl⟩ := h.stopped hmore
    exact ⟨_, hfault, rfl, depth_lines fuel source hend⟩
  · intro κ m left k c whole short hends
    have hasks := asks_lines fuel source whole (by simp [hends])
    have hcount : c.prompts.size = (requests fuel source whole).length :=
      (length_requests hends).trans (Nat.zero_add _)
    refine ⟨hasks.follows [], hcount.symm, fun hfew => ?_, fun _ hmore => ?_⟩
    · rw [hcount] at hfew ⊢
      exact lines_cut hends hfew
    · -- the request that cannot be met is one that the longer run makes
      obtain ⟨r, hr⟩ : ∃ r, (requests fuel source whole)[k]? = some r :=
        ⟨_, List.getElem?_eq_getElem (hcount ▸ hmore)⟩
      obtain ⟨⟨cause, pos⟩, m', hfailed, rfl, hglobals, hwritten, hprompts⟩ := hasks.refused hr
      have hwithin := (hasks.asked hends).noted hr
      have hsize : m'.console.prompts.size = k + 1 := by
        rw [hprompts, Array.size_push, hwithin.count]
        exact congrArg (· + 1) (Nat.zero_add k)
      refine ⟨_, m', r, hfailed, rfl, ?_, hr, hglobals, hwritten, hprompts, hsize, ?_, ?_⟩
      · exact depth_lines fuel source (congrArg Outcome.machine? hfailed)
      · exact hwritten ▸ hwithin.written
      · exact hprompts ▸ hwithin.prompts

/-- A program shows a line for each of two lines that it reads. With room for one line it fails at
the second one that it shows, and with one line to read at the second one that it asks for, when it
has shown the first. -/
theorem console_failures_stop_second :
    let source := ["print(input())", "x = input()", "print(x)"]
    let m : Machine Buffer := Machine.start (Buffer.withInput ["a", "b"] (some 1)) false .lowest
    let whole := m.on (Buffer.withInput ["a", "b"] none)
    ∃ full m₁ m₂ f₁ f₂ r,
      (lines 30 source whole).machine? = some full ∧
      full.console.written = #["a", "b"] ∧ full.console.prompts = #["", ""] ∧
      (lines 30 source m).machine? = some m₁ ∧
      m₁.console.written.toList = full.console.written.toList.take 1 ∧
      (lines 30 source m).fault? = some f₁ ∧
      f₁.diagnostic = ⟨.evaluation, "Console error: write failed", f₁.position⟩ ∧
      lines 30 source (m.on (Buffer.withInput ["a"] none)) = .failed f₂ m₂ ∧
      f₂.diagnostic = ⟨.evaluation, "Console error: no more input", f₂.position⟩ ∧
      (requests 30 source whole)[1]? = some r ∧
      m₂.console.written = r.machine.console.written ∧ m₂.console.prompts.size = 2 := by
  intro source m whole
  have hconsole : (lines 30 source whole).machine?.map
      (fun full => (full.console.written, full.console.prompts)) =
        some (#["a", "b"], #["", ""]) := by
    decide +kernel
  obtain ⟨full, hfull, hends⟩ := Option.map_eq_some_iff.1 hconsole
  obtain ⟨hshown, hasked⟩ := Prod.mk.inj hends
  obtain ⟨hwrites, hreads⟩ := console_failures_stop 30 source ["a", "b"]
  obtain ⟨m₁, hend₁, hwritten, -, hstopped⟩ :=
    hwrites Buffer id "write failed" Buffer.records 1 m rfl full hfull
  obtain ⟨f₁, hfault₁, hmessage₁, -⟩ := hstopped (by simp [hshown])
  obtain ⟨-, -, -, hcut⟩ :=
    hreads Buffer m none 1 full.console (Outcome.console?_of_machine? hfull)
  obtain ⟨f₂, m₂, r, hfailed₂, hmessage₂, -, hr, -, hwritten₂, -, hprompts, -⟩ :=
    hcut (by decide) (by simp [hasked])
  exact ⟨full, m₁, m₂, f₁, f₂, r, hfull, hshown, hasked, hend₁, hwritten, hfault₁, hmessage₁,
    hfailed₂, hmessage₂, hr, hwritten₂, hprompts⟩

end Eval

end Primer
