/-
ClassGraph.Unicode.Span — the two written forms in which character data is
kept: marked runs that cover all code points in order, and spans of code
points.

A run is a mark, a capital letter and small ones, with the number of code
points that it covers (one where no number stands). A span is `first`,
`first-last` or `first-last/step`, in hexadecimal digits, and stands for
every code point that steps reach from its first to its last.
-/
import ClassGraph.Text.Basic

namespace ClassGraph.Unicode

/-! ## §1 Runs -/

/-- Marks with the number of code points that each covers, from code point zero on. -/
abbrev Runs := List (Text × Nat)

/-- What has been read of a text of runs. -/
structure RunReader where
  /-- The finished runs, last first. -/
  done : Runs
  /-- The mark of the open run, last letter first. -/
  mark : Text
  /-- The digits of the open run so far. -/
  count : Option Nat

/-- The finished runs, the open one among them. -/
def RunReader.close (r : RunReader) : Runs :=
  if r.mark.isEmpty then r.done else (r.mark.reverse, r.count.getD 1) :: r.done

/-- The reader one character on. -/
def RunReader.push (r : RunReader) (c : Char) : RunReader :=
  if c.isUpper then ⟨r.close, [c], none⟩
  else if c.isDigit then { r with count := some (r.count.getD 0 * 10 + (c.toNat - 48)) }
  else { r with mark := c :: r.mark }

def readRuns (s : Text) : Runs := (s.foldl RunReader.push ⟨[], [], none⟩).close.reverse

def runsOf (lines : List String) : Runs := lines.flatMap fun l => readRuns l.toList

/-- The mark of a code point. -/
def markAt : Runs → Nat → Option Text
  | [], _ => none
  | (mark, count) :: rest, n => if n < count then some mark else markAt rest (n - count)

/-! ## §2 Spans -/

/-- The code points from `first` to `last` that steps reach. -/
structure Span where
  first : Nat
  last : Nat
  step : Nat
  deriving DecidableEq, Repr

/-- Whether a code point is among those of a span. -/
def Span.contains (s : Span) (n : Nat) : Bool :=
  s.first ≤ n && n ≤ s.last && (n - s.first) % s.step == 0

/-- The value of a hexadecimal digit. -/
def hexValue (c : Char) : Nat :=
  if c.isDigit then c.toNat - 48 else if c.isLower then c.toNat - 87 else c.toNat - 55

def hexNumber (s : Text) : Nat := s.foldl (fun n c => n * 16 + hexValue c) 0

/-- The span that a text writes down. -/
def Span.ofText (s : Text) : Span :=
  let bounds := s.takeWhile (· != '/')
  let step := (s.dropWhile (· != '/')).drop 1
  let first := hexNumber (bounds.takeWhile (· != '-'))
  match bounds.dropWhile (· != '-') with
  | [] => ⟨first, first, 1⟩
  | _ :: last => ⟨first, hexNumber last, if step.isEmpty then 1 else hexNumber step⟩

def wordsOf (lines : List String) : List Text := lines.flatMap fun l => cut ' ' l.toList

def spansOf (lines : List String) : List Span := (wordsOf lines).map Span.ofText

end ClassGraph.Unicode
