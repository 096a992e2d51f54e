import Primer.Proofs.Drawing
import Primer.Proofs.Means

/-!
# What a run asks for

A run asks its console for lines. To say what it has done by then, it is followed: beside the
buffer, the machine is kept as it is at each request (`Followed`). This changes nothing else, and
says what a run comes to whose input ends sooner. If the input ends after the lines that are asked
for, the run is the same. If it ends before, the run fails at the first request that it cannot meet,
with the global table and the lines that the request was noted with (`Asks`).

This holds of the means of a run, and of two computations in a row if it holds of each
(`Eval.followedMeans`), so it holds of every source (`Eval.asks_lines`).
-/

set_option autoImplicit false

namespace Primer

/-- A request for a line: the machine that makes it, and the prompt. -/
structure Request where
  machine : Machine Buffer
  prompt : String

/-- A buffer, and the requests that were made to it. -/
structure Followed where
  buffer : Buffer
  requests : List Request

variable {κ κ' α β : Type} {A : α → Prop} {B : β → Prop}

/-- A computation on a buffer that is followed: what is to be noted of it is known from the machine
before. -/
def Exec.noting (note : Machine Buffer → List Request) (y : Exec Buffer α) : Exec Followed α :=
  fun m => (y (m.on m.console.buffer)).mapConsole fun b =>
    ⟨b, m.console.requests ++ note (m.on m.console.buffer)⟩

instance : Dialogue Followed where
  writeLine s pos := (Machine.writeLine s pos).noting fun _ => []
  readLine prompt pos := (Machine.readLine prompt pos).noting fun m => [⟨m, prompt⟩]

/-- The requests that a run of a source makes, in this order. -/
def Eval.requests (fuel : Nat) (source : List String) (m : Machine Buffer) : List Request :=
  ((lines fuel source (m.on (⟨m.console, []⟩ : Followed))).console?.map Followed.requests).getD []

/-! ## Input that ends sooner -/

/-- The buffer with no more than the first lines of its input. -/
def Buffer.cut (b : Buffer) (n : Nat) : Buffer := { b with input := b.input.take n }

/-- The machine with no more than the first lines of its input. -/
def Machine.cut (m : Machine Buffer) (n : Nat) : Machine Buffer := m.on (m.console.cut n)

/-- The request was made after `n` others, and what was written and asked for by then is a first
part of what the buffer has. -/
structure Request.Within (r : Request) (n : Nat) (c : Buffer) : Prop where
  written : r.machine.console.written.toList <+: c.written.toList
  prompts : (r.machine.console.prompts.push r.prompt).toList <+: c.prompts.toList
  count : r.machine.console.prompts.size = n

/-- What a buffer comes to that requests were made to. -/
structure Buffer.Asked (b : Buffer) (new : List Request) (c : Buffer) : Prop where
  written : b.written.toList <+: c.written.toList
  prompts : b.prompts.toList <+: c.prompts.toList
  count : c.prompts.size = b.prompts.size + new.length
  input : c.input = b.input.drop new.length
  noted {i : Nat} {r : Request} (h : new[i]? = some r) : r.Within (b.prompts.size + i) c

/-- A buffer that was not asked for anything is as it was. -/
theorem Buffer.asked_nil (b : Buffer) : b.Asked [] b :=
  ⟨List.prefix_rfl, List.prefix_rfl, rfl, rfl, nofun⟩

/-- Requests may be made one group after the other. -/
theorem Buffer.Asked.trans {b c d : Buffer} {new more : List Request} (h : b.Asked new c)
    (h' : c.Asked more d) : b.Asked (new ++ more) d where
  written := h.written.trans h'.written
  prompts := h.prompts.trans h'.prompts
  count := by rw [h'.count, h.count, List.length_append, Nat.add_assoc]
  input := by rw [h'.input, h.input, List.drop_drop, List.length_append]
  noted {i r} hr := by
    by_cases hi : i < new.length
    · rw [List.getElem?_append_left hi] at hr
      have hfirst := h.noted hr
      exact ⟨hfirst.written.trans h'.written, hfirst.prompts.trans h'.prompts, hfirst.count⟩
    · rw [List.getElem?_append_right (Nat.le_of_not_lt hi)] at hr
      have hsecond := h'.noted hr
      refine ⟨hsecond.written, hsecond.prompts, ?_⟩
      rw [hsecond.count, h.count]
      omega

/-- A run that could not meet the request has failed with this fault and machine. -/
structure Request.Refused (r : Request) (fault : Fault) (m : Machine Buffer) : Prop where
  cause : fault.cause = .console "no more input"
  globals : m.globals = r.machine.globals
  written : m.console.written = r.machine.console.written
  prompts : m.console.prompts = r.machine.console.prompts.push r.prompt

/-- From the machine, the computation makes the requests `new`, which the second one notes. With
less input it does the same, or fails at the request that it cannot meet. -/
structure Asks (y : Exec Buffer α) (x : Exec Followed α) (m : Machine Buffer)
    (new : List Request) : Prop where
  follows (old : List Request) :
    x (m.on (⟨m.console, old⟩ : Followed)) = (y m).mapConsole fun b => ⟨b, old ++ new⟩
  enough {n : Nat} (h : new.length ≤ n) :
    y (m.cut n) = (y m).mapConsole fun b => b.cut (n - new.length)
  refused {n : Nat} {r : Request} (h : new[n]? = some r) :
    ∃ fault m', y (m.cut n) = .failed fault m' ∧ r.Refused fault m'
  asked {c : Buffer} (h : (y m).console? = some c) : m.console.Asked new c

/-- From every machine the first computation makes requests that the second one notes; its results
have the property. -/
structure Exec.Follows (A : α → Prop) (y : Exec Buffer α) (x : Exec Followed α) : Prop where
  asks (m : Machine Buffer) : ∃ new, Asks y x m new
  value {m m' : Machine Buffer} {a : α} (h : y m = .done a m') : A a

/-! ## Computations that ask for nothing -/

section Silent

variable {y : Exec Buffer α} {x : Exec Followed α}

/-- A computation asks for nothing that goes the same way on every console and leaves it as it
is. -/
theorem Asks.of_silent (hx : ∀ m (c : Followed), x (m.on c) = (y m).mapConsole fun _ => c)
    (hy : ∀ m (b : Buffer), y (m.on b) = (y m).mapConsole fun _ => b) (m : Machine Buffer) :
    Asks y x m [] := by
  have hsame : y m = (y m).mapConsole fun _ => m.console := hy m m.console
  refine ⟨fun old => ?_, fun {n} _ => ?_, fun {n r} h => ?_, fun {c} hc => ?_⟩
  · rw [hx, hsame, Outcome.mapConsole_mapConsole, Outcome.mapConsole_mapConsole, List.append_nil]
  · rw [Machine.cut, hy, hsame, Outcome.mapConsole_mapConsole, Outcome.mapConsole_mapConsole]
    rfl
  · cases h
  · rw [hsame, Outcome.console?_mapConsole] at hc
    obtain ⟨_, -, rfl⟩ := Option.map_eq_some_iff.1 hc
    exact Buffer.asked_nil _

/-- Of two computations it matters only what they do on the machine with another console. -/
theorem Asks.congr {y' : Exec Buffer α} {x' : Exec Followed α} {m : Machine Buffer}
    {new : List Request} (h : Asks y x m new) (hy : ∀ b : Buffer, y' (m.on b) = y (m.on b))
    (hx : ∀ c : Followed, x' (m.on c) = x (m.on c)) : Asks y' x' m new := by
  have hsame : y' m = y m := hy m.console
  refine ⟨fun old => ?_, fun {n} hn => ?_, fun {n r} hr => ?_, fun {c} hc => ?_⟩
  · rw [hx, hsame, h.follows]
  · rw [Machine.cut, hy, hsame]
    exact h.enough hn
  · rw [Machine.cut, hy]
    exact h.refused hr
  · rw [hsame] at hc
    exact h.asked hc

end Silent

theorem Exec.ofExcept_on (r : Except Fault α) (m : Machine κ) (c : κ') :
    Exec.ofExcept r (m.on c) = (Exec.ofExcept r m).mapConsole fun _ => c := by
  cases r <;> rfl

theorem Machine.found_on (name : String) (pos : Position) (m : Machine κ) (c : κ') :
    Machine.found name pos (m.on c) = (Machine.found name pos m).mapConsole fun _ => c :=
  Exec.ofExcept_on (m.lookup name pos) m c

/-- An assignment does not depend on the console. -/
theorem Machine.assign_on (target : Target) (v : Value) (pos : Position) (m : Machine κ) (c : κ') :
    Machine.assign target v pos (m.on c) =
      (Machine.assign target v pos m).mapConsole fun _ => c := by
  obtain ⟨globals, scope, depth, echo, console, draws⟩ := m
  cases scope with
  | none =>
    simp only [Machine.assign, Machine.on]
    cases globals.assign target.name v target.sealing pos <;> rfl
  | some table =>
    cases hglobal : target.isGlobal with
    | true =>
      simp only [Machine.assign, Machine.on, hglobal]
      cases globals.assign target.name v target.sealing pos <;> rfl
    | false =>
      simp only [Machine.assign, Machine.on, hglobal]
      cases table.assign target.name v target.sealing pos <;> rfl

theorem Native.drawNumber_on (args : List Value) (pos : Position) (m : Machine κ) (c : κ') :
    Native.drawNumber args pos (m.on c) =
      (Native.drawNumber args pos m).mapConsole fun _ => c := by
  simp only [Native.drawNumber, Machine.on]
  cases Native.draw m.draws args pos with
  | error fault => rfl
  | ok drawn => cases drawn <;> rfl

/-! ## Computations in a row -/

theorem Exec.follows_pure {a : α} (h : A a) : Exec.Follows A (pure a) (pure a) where
  asks := fun m => ⟨[], .of_silent (fun _ _ => rfl) (fun _ _ => rfl) m⟩
  value := by
    rintro m m' b ⟨⟩
    exact h

theorem Exec.follows_fail (fault : Fault) :
    Exec.Follows A (Exec.fail fault) (Exec.fail fault) where
  asks := fun m => ⟨[], .of_silent (fun _ _ => rfl) (fun _ _ => rfl) m⟩
  value := by
    rintro m m' b ⟨⟩

theorem Exec.follows_exhausted : Exec.Follows A Exec.exhausted Exec.exhausted where
  asks := fun m => ⟨[], .of_silent (fun _ _ => rfl) (fun _ _ => rfl) m⟩
  value := by
    rintro m m' b ⟨⟩

section Row

variable {y : Exec Buffer α} {x : Exec Followed α} {g : α → Exec Buffer β}
  {f : α → Exec Followed β} {m m₁ : Machine Buffer} {new more : List Request}

/-- What the second computation asks for comes after what the first one asked for. -/
theorem Asks.bind_done {a : α} (hx : Asks y x m new) (hdone : y m = .done a m₁)
    (hf : Asks (g a) (f a) m₁ more) : Asks (y >>= g) (x >>= f) m (new ++ more) := by
  -- with enough input the first computation leaves what the second may ask for
  have hcut : ∀ {n}, new.length ≤ n → y (m.cut n) = .done a (m₁.cut (n - new.length)) := by
    intro n hn
    rw [hx.enough hn, hdone]
    rfl
  have hrow : (y >>= g) m = g a m₁ := Exec.bind_of_done hdone
  refine ⟨fun old => ?_, fun {n} hn => ?_, fun {n r} hr => ?_, fun {c} hc => ?_⟩
  · have hfirst := hx.follows old
    rw [hdone] at hfirst
    rw [Exec.bind_of_done hfirst, hrow, ← List.append_assoc]
    exact hf.follows (old ++ new)
  · rw [List.length_append] at hn
    rw [Exec.bind_of_done (hcut (by omega)), hrow, hf.enough (by omega), List.length_append,
      Nat.sub_sub]
  · -- the request is one of the first computation, or of the second
    by_cases hn : n < new.length
    · rw [List.getElem?_append_left hn] at hr
      obtain ⟨fault, m', hfailed, hrefused⟩ := hx.refused hr
      exact ⟨fault, m', Exec.bind_of_failed hfailed, hrefused⟩
    · rw [List.getElem?_append_right (Nat.le_of_not_lt hn)] at hr
      rw [Exec.bind_of_done (hcut (Nat.le_of_not_lt hn))]
      exact hf.refused hr
  · rw [hrow] at hc
    have hfirst := hx.asked (c := m₁.console) (by rw [hdone]; rfl)
    exact hfirst.trans (hf.asked hc)

/-- After a computation that is not done, nothing more is asked for. -/
theorem Asks.bind_stopped (hx : Asks y x m new) (hstop : ∀ a m₁, y m ≠ .done a m₁) :
    Asks (y >>= g) (x >>= f) m new := by
  refine ⟨fun old => ?_, fun {n} hn => ?_, fun {n r} hr => ?_, fun {c} hc => ?_⟩
  · show (x (m.on ⟨m.console, old⟩)).andThen f = ((y m).andThen g).mapConsole _
    rw [hx.follows old, Outcome.mapConsole_andThen hstop]
  · show (y (m.cut n)).andThen g = ((y m).andThen g).mapConsole _
    rw [hx.enough hn, Outcome.mapConsole_andThen hstop]
  · obtain ⟨fault, m', hfailed, hrefused⟩ := hx.refused hr
    exact ⟨fault, m', Exec.bind_of_failed hfailed, hrefused⟩
  · change ((y m).andThen g).console? = some c at hc
    rw [Outcome.console?_andThen hstop] at hc
    exact hx.asked hc

end Row

/-- Computations in a row are followed if each of them is. -/
theorem Exec.Follows.bind {y : Exec Buffer α} {x : Exec Followed α} {g : α → Exec Buffer β}
    {f : α → Exec Followed β} (hx : Exec.Follows A y x)
    (hf : ∀ a, A a → Exec.Follows B (g a) (f a)) : Exec.Follows B (y >>= g) (x >>= f) where
  asks := fun m => by
    obtain ⟨new, hnew⟩ := hx.asks m
    by_cases hdone : ∃ a m₁, y m = .done a m₁
    · obtain ⟨a, m₁, hdone⟩ := hdone
      obtain ⟨more, hmore⟩ := (hf a (hx.value hdone)).asks m₁
      exact ⟨new ++ more, hnew.bind_done hdone hmore⟩
    · exact ⟨new, hnew.bind_stopped fun a m₁ h => hdone ⟨a, m₁, h⟩⟩
  value := fun h => by
    obtain ⟨a, m₁, hdone, hrest⟩ := Exec.bind_eq_done h
    exact (hf a (hx.value hdone)).value hrest

/-- What admits the rules for computations in a row. -/
def Exec.following : Rules Buffer Followed where
  Rel := Exec.Follows
  pure := follows_pure
  fail _ := follows_fail _
  exhausted := follows_exhausted
  bind hx hf := Follows.bind hx hf

/-! ## The means of a run -/

namespace Machine

theorem follows_found (name : String) (pos : Position) :
    Exec.Follows (fun _ => True) (found name pos) (found name pos) :=
  ⟨fun m => ⟨[], .of_silent (found_on name pos) (found_on name pos) m⟩, fun _ => trivial⟩

theorem follows_assign (target : Target) (v : Value) (pos : Position) :
    Exec.Follows (fun _ => True) (Machine.assign target v pos) (Machine.assign target v pos) :=
  ⟨fun m => ⟨[], .of_silent (assign_on target v pos) (assign_on target v pos) m⟩, fun _ => trivial⟩

/-- A line that is shown is no request, and does not depend on the input. -/
theorem follows_writeLine (s : String) (pos : Position) :
    Exec.Follows (fun _ => True) (Dialogue.writeLine s pos) (Dialogue.writeLine s pos) := by
  refine ⟨fun m => ⟨[], fun old => rfl, fun {n} _ => ?_, fun {n r} h => ?_, fun {c} hc => ?_⟩,
    fun _ => trivial⟩
  · obtain ⟨globals, scope, depth, echo, ⟨written, prompts, input, _ | _ | n⟩, draws⟩ := m <;> rfl
  · cases h
  · obtain ⟨globals, scope, depth, echo, ⟨written, prompts, input, left⟩, draws⟩ := m
    obtain _ | _ | n := left
    · obtain rfl := Option.some.inj hc
      exact ⟨by simp, List.prefix_rfl, rfl, rfl, nofun⟩
    · obtain rfl := Option.some.inj hc
      exact Buffer.asked_nil _
    · obtain rfl := Option.some.inj hc
      exact ⟨by simp, List.prefix_rfl, rfl, rfl, nofun⟩

/-- A line that is asked for is a request, and it is refused if there is no line. -/
theorem follows_readLine (prompt : String) (pos : Position) :
    Exec.Follows (fun _ => True) (Dialogue.readLine prompt pos) (Dialogue.readLine prompt pos) := by
  have hnoted : ∀ {m : Machine Buffer} {i : Nat} {r : Request},
      [(⟨m, prompt⟩ : Request)][i]? = some r → i = 0 ∧ r = ⟨m, prompt⟩ := by
    rintro m (_ | i) r hr
    · exact ⟨rfl, (Option.some.inj hr).symm⟩
    · cases hr
  refine ⟨fun m => ⟨[⟨m, prompt⟩], fun old => rfl, fun {n} hn => ?_, fun {n r} h => ?_,
    fun {c} hc => ?_⟩, fun _ => trivial⟩
  · -- with more input than one line, the first line is the same
    obtain ⟨k, rfl⟩ := Nat.exists_eq_add_of_le' hn
    obtain ⟨globals, scope, depth, echo, ⟨written, prompts, _ | ⟨s, rest⟩, left⟩, draws⟩ := m
    · show Outcome.failed _ _ = Outcome.failed _ _
      simp [Machine.on, Buffer.cut]
    · rfl
  · -- without input the request is refused, and its prompt was shown
    obtain ⟨rfl, rfl⟩ := hnoted h
    exact ⟨_, _, rfl, rfl, rfl, rfl, rfl⟩
  · obtain ⟨globals, scope, depth, echo, ⟨written, prompts, _ | ⟨s, rest⟩, left⟩, draws⟩ := m
    · obtain rfl := Option.some.inj hc
      refine ⟨List.prefix_rfl, by simp, by simp, rfl, fun hr => ?_⟩
      obtain ⟨rfl, rfl⟩ := hnoted hr
      exact ⟨List.prefix_rfl, List.prefix_rfl, rfl⟩
    · obtain rfl := Option.some.inj hc
      refine ⟨List.prefix_rfl, by simp, by simp, rfl, fun hr => ?_⟩
      obtain ⟨rfl, rfl⟩ := hnoted hr
      exact ⟨List.prefix_rfl, List.prefix_rfl, rfl⟩

variable {y : Exec Buffer α} {x : Exec Followed α}

/-- Whether a call is refused for its depth is no matter of the console. -/
theorem follows_limited (hx : Exec.Follows A y x) (pos : Position) :
    Exec.Follows A (limited pos y) (limited pos x) := by
  refine ⟨fun m => ?_, fun {m m' a} h => ?_⟩
  · -- the depth is the same on every console
    by_cases hdeep : Eval.maxDepth ≤ m.depth
    · obtain ⟨new, h⟩ := (Exec.follows_fail (A := A) ⟨.callDepth Eval.maxDepth, pos⟩).asks m
      exact ⟨new, h.congr (fun _ => if_pos hdeep) fun _ => if_pos hdeep⟩
    · obtain ⟨new, h⟩ := hx.asks m
      exact ⟨new, h.congr (fun _ => if_neg hdeep) fun _ => if_neg hdeep⟩
  · unfold limited at h
    split at h
    · cases h
    · exact hx.value h

/-- A call makes the requests of its body. -/
theorem follows_inCall (hx : Exec.Follows A y x) (table : Table) :
    Exec.Follows A (inCall table y) (inCall table x) := by
  refine ⟨fun m => ?_, fun {m m' a} h => ?_⟩
  · obtain ⟨new, h⟩ := hx.asks { m with scope := some table, depth := m.depth + 1 }
    refine ⟨new, fun old => ?_, fun {n} hn => ?_, fun {n r} hr => ?_, fun {c} hc => ?_⟩
    · exact (congrArg (Outcome.leave · (m.on ⟨m.console, old⟩)) (h.follows old)).trans
        (Outcome.mapConsole_leave _ _ m _)
    · exact (congrArg (Outcome.leave · (m.cut n)) (h.enough hn)).trans
        (Outcome.mapConsole_leave _ _ m _)
    · obtain ⟨fault, m', hfailed, hrefused⟩ := h.refused hr
      refine ⟨fault, { m' with scope := m.scope, depth := m'.depth - 1 }, ?_, ?_⟩
      · exact congrArg (Outcome.leave · (m.cut n)) hfailed
      · exact ⟨hrefused.cause, hrefused.globals, hrefused.written, hrefused.prompts⟩
    · exact h.asked ((Outcome.console?_leave _ m).symm.trans hc)
  · change (y { m with scope := some table, depth := m.depth + 1 }).leave m = .done a m' at h
    generalize hrun : y { m with scope := some table, depth := m.depth + 1 } = o at h
    cases o with
    | done b m₁ =>
      cases h
      exact hx.value hrun
    | failed fault m₁ => cases h
    | panicked least most console => cases h
    | outOfFuel => cases h

theorem follows_ifEcho {y' : Exec Buffer α} {x' : Exec Followed α} (hx : Exec.Follows A y x)
    (hx' : Exec.Follows A y' x') : Exec.Follows A (ifEcho y y') (ifEcho x x') := by
  refine ⟨fun m => ?_, fun {m m' a} h => ?_⟩
  · by_cases hecho : m.echo = true
    · obtain ⟨new, h⟩ := hx.asks m
      exact ⟨new, h.congr (fun _ => if_pos hecho) fun _ => if_pos hecho⟩
    · obtain ⟨new, h⟩ := hx'.asks m
      exact ⟨new, h.congr (fun _ => if_neg hecho) fun _ => if_neg hecho⟩
  · unfold ifEcho at h
    split at h
    · exact hx.value h
    · exact hx'.value h

end Machine

theorem Native.follows_drawNumber (args : List Value) (pos : Position) :
    Exec.Follows Value.IsScalar (Native.drawNumber args pos) (Native.drawNumber args pos) := by
  refine ⟨fun m => ⟨[], .of_silent (drawNumber_on args pos) (drawNumber_on args pos) m⟩,
    fun {m m' v} h => ?_⟩
  have hfair := Native.yields_draw args pos m.draws
  unfold Native.drawNumber at h
  split at h
  · next w draws hdraw =>
    cases h
    exact hfair _ hdraw
  · cases h
  · cases h

namespace Eval

/-- All means of a run are followed. -/
def followedMeans : Means Fragment.whole Buffer Followed where
  exprs := Exec.following
  stmts := Exec.following
  lift h := h
  found _ pos := Machine.follows_found _ pos
  assign _ _ _ pos := Machine.follows_assign _ _ pos
  writeLine := Machine.follows_writeLine
  readLine := Machine.follows_readLine
  drawNumber := Native.follows_drawNumber
  inCall {_ _ _ _} hx table _ pos := Machine.follows_limited (Machine.follows_inCall hx table) pos
  ifEcho hx hy := Machine.follows_ifEcho hx hy

/-! ## Sources -/

/-- Every run is followed. -/
theorem follows_lines (fuel : Nat) (source : List String) :
    Exec.Follows (fun _ => True) (lines fuel source) (lines fuel source) := by
  unfold lines
  split
  · exact Exec.follows_fail _
  · next p _ =>
    refine Exec.Follows.bind (followedMeans.topLevels fuel (Stmt.allOf_true _)) fun _ _ => ?_
    cases p.fault with
    | none => exact Exec.follows_pure trivial
    | some fault => exact Exec.follows_fail fault

/-- **To follow a run does not change it**, and what is noted are the requests that it makes. -/
theorem asks_lines (fuel : Nat) (source : List String) (m : Machine Buffer)
    (hends : (lines fuel source m).console? ≠ none) :
    Asks (lines fuel source) (lines fuel source) m (requests fuel source m) := by
  obtain ⟨new, h⟩ := (follows_lines fuel source).asks m
  obtain ⟨c, hc⟩ := Option.ne_none_iff_exists'.1 hends
  have hnew : requests fuel source m = new := by
    rw [requests, h.follows [], Outcome.console?_mapConsole, hc]
    rfl
  rw [hnew]
  exact h

end Eval

end Primer
