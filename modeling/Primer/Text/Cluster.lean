import Primer.Text.Break

/-!
# Characters as they are seen

A reader takes a letter with its marks, a syllable or a joined pictograph for one character. The
extended grapheme clusters of the Unicode standard say which characters belong together:
`Seam.joins` decides from what stands before a place and the character after it whether the place
is inside a cluster.

A backspace takes back the cluster before it. It does so by a number of bytes, which is recorded
when the cluster is typed and has room for one byte: of a cluster of 256 bytes or more only the
remainder is taken back, and where that would divide a character there is no result.
-/

set_option autoImplicit false

namespace Primer.Text

/-- What matters of the text before a place: the class of the last character, whether the text ends
in a pictograph with its marks and whether a joiner follows it there, whether it ends in an odd
number of regional indicators, and whether it ends in a consonant with its marks and whether a
linker is among them. -/
structure Seam where
  last : Break
  pictograph : Bool
  joined : Bool
  oddRegional : Bool
  consonant : Bool
  linked : Bool
deriving DecidableEq, Repr

namespace Seam

/-- Whether the classes of two neighbours alone put them into one cluster. -/
def neighbours : Break → Break → Bool
  | .control, _ => false
  | _, .control => false
  | _, .extend => true
  | _, .joiner => true
  | _, .spacing => true
  | .prepend, _ => true
  | .leading, .leading => true
  | .leading, .vowel => true
  | .leading, .openSyllable => true
  | .leading, .closedSyllable => true
  | .openSyllable, .vowel => true
  | .openSyllable, .trailing => true
  | .vowel, .vowel => true
  | .vowel, .trailing => true
  | .closedSyllable, .trailing => true
  | .trailing, .trailing => true
  | _, _ => false

/-- Whether the next character belongs to the cluster before it. -/
def joins (s : Seam) (c : Char) : Bool :=
  let b := Break.ofCode c.toNat
  neighbours s.last b
    || (s.joined && b == .pictograph)
    || (s.oddRegional && b == .regional)
    || (s.linked && inRanges consonantRanges c.toNat)

/-- What matters of a text that starts with the given character. -/
def start (c : Char) : Seam :=
  let b := Break.ofCode c.toNat
  ⟨b, b == .pictograph, false, b == .regional, inRanges consonantRanges c.toNat, false⟩

/-- The sign that keeps two consonants from forming a conjunct. -/
def nonJoiner : Char := '\u200C'

/-- What matters after one more character. -/
def push (s : Seam) (c : Char) : Seam :=
  let b := Break.ofCode c.toNat
  let isConsonant := inRanges consonantRanges c.toNat
  let isMark : Bool := (b == .extend || b == .joiner) && c != nonJoiner
  { last := b
    pictograph := b == .pictograph || (s.pictograph && b == .extend)
    joined := s.pictograph && b == .joiner
    oddRegional := b == .regional && !s.oddRegional
    consonant := isConsonant || (s.consonant && isMark)
    linked := !isConsonant && s.consonant && isMark &&
      (s.linked || inRanges linkerRanges c.toNat) }

end Seam

/-- The clusters of a text that continues a cluster, whose characters so far are given in reverse
order. -/
def clustersFrom : Seam → List Char → List Char → List (List Char)
  | _, current, [] => [current.reverse]
  | s, current, c :: cs =>
    if s.joins c then clustersFrom (s.push c) (c :: current) cs
    else current.reverse :: clustersFrom (s.push c) [c] cs

/-- The clusters of a text. -/
def clusters : List Char → List (List Char)
  | [] => []
  | c :: cs => clustersFrom (Seam.start c) [c] cs

/-- The backspace character. -/
def backspace : Char := '\x08'

/-- The number of bytes of a text. -/
def byteSize : List Char → Nat
  | [] => 0
  | c :: cs => c.utf8Size + byteSize cs

/-- Takes the last bytes off a text given in reverse order, unless this divides a character or
there are not so many bytes. -/
def dropBytes? : Nat → List Char → Option (List Char)
  | n, [] => if n = 0 then some [] else none
  | n, c :: cs =>
    if n = 0 then some (c :: cs)
    else if c.utf8Size ≤ n then dropBytes? (n - c.utf8Size) cs
    else none

/-- What was typed: the characters that are left, and the sizes of the clusters that a backspace
can take back, both in reverse order. -/
structure Typed where
  kept : List Char
  sizes : List Nat
deriving DecidableEq, Repr

namespace Typed

/-- Before anything is typed. -/
def empty : Typed := ⟨[], []⟩

/-- Adds a cluster. Its size is recorded in one byte. -/
def type (t : Typed) (cluster : List Char) : Typed :=
  ⟨cluster.reverse ++ t.kept, byteSize cluster % 256 :: t.sizes⟩

/-- Takes back as many bytes as the last recorded size says. Without a size nothing happens. -/
def takeBack? (t : Typed) : Option Typed :=
  match t.sizes with
  | [] => some t
  | n :: sizes => (dropBytes? n t.kept).map fun kept => ⟨kept, sizes⟩

/-- Types clusters one after another; a backspace takes back the one before it. -/
def typeAll? : List (List Char) → Typed → Option Typed
  | [], t => some t
  | g :: gs, t =>
    if g = [backspace] then
      match t.takeBack? with
      | none => none
      | some t' => typeAll? gs t'
    else typeAll? gs (t.type g)

end Typed

/-- A typed text with its backspaces applied, unless one of them divides a character. -/
def applyBackspaces? (cs : List Char) : Option (List Char) :=
  if cs.contains backspace then (Typed.typeAll? (clusters cs) .empty).map fun t => t.kept.reverse
  else some cs

end Primer.Text
