/-
ClassGraph.Tally — what one file says about its class.

A file holds the class that its place in the tree names (`literal` below);
its references count for the nearest class around it with a name of its own
(`this`). Every line counts each of its references once. A reference counts
when the selections accept it and it is neither to an anonymous class, nor to
a generated one, nor to the class itself; a nested class also refers to its
outermost enclosing class once. Main statement: `find?_countOne` — counting a
name changes its own count and no other.
-/
import ClassGraph.Event
import ClassGraph.Graph.Basic
import ClassGraph.Marker
import ClassGraph.Reference
import ClassGraph.Selection

namespace ClassGraph

/-- What the counting of references depends on. -/
structure Scope where
  /-- Where the tree begins. -/
  root : Path
  /-- The paths, of files and of references, that take part. -/
  paths : Option Selection
  /-- The classes that take part. -/
  classes : Option Selection
  generated : Markers

/-- The counts of a file. -/
structure Tally where
  /-- The class for which they count. -/
  name : Name
  counts : Counts
  /-- The number of lines that are not text. -/
  failedLines : Nat
  deriving DecidableEq

/-- What becomes of a file. -/
inductive FileOutcome where
  /-- Its references are counted. -/
  | counted (t : Tally)
  /-- Its class takes no part, so it is not read. -/
  | excluded (name : Name)
  /-- It has no class name or cannot be read. -/
  | failed
  deriving DecidableEq

/-- How a file is handled: its outcome and events are settled before it is read, or it is read and
they follow from what that gives. -/
inductive Handling where
  | settled (outcome : FileOutcome) (events : List Event)
  | reading (next : Except Text Bytes → FileOutcome × List Event)

namespace Handling

/-- The outcome of a handling and its events, given what reading the file would give. -/
def result : Handling → Except Text Bytes → FileOutcome × List Event
  | settled outcome events, _ => (outcome, events)
  | reading next, content => next content

/-- Whether a handling reads the file. -/
def asks : Handling → Bool
  | settled .. => false
  | reading _ => true

end Handling

def countOne (counts : Counts) (n : Name) : Counts := counts.upsert n fun old => old.getD 0 + 1

theorem find?_countOne (counts : Counts) (n k : Name) :
    (countOne counts n).find? k =
      if k = n then some ((counts.find? n).getD 0 + 1) else counts.find? k := by
  unfold countOne
  split
  · next h => rw [h, SortedMap.find?_upsert_self]
  · next h => rw [SortedMap.find?_upsert_of_ne _ h]

namespace Scope

/-- The class to which a reference counts, if it does, in the file of the class `literal` whose
references count for `this`. -/
def dependency? (scope : Scope) (this literal : Name) (body : Text) : Option Name :=
  let n := Name.ofDescriptor body
  if Selection.passes scope.paths body && !n.isEmpty && Selection.passes scope.classes n
      && !n.isAnonymous && !scope.generated.isGenerated n && n != this && n != literal then
    some n
  else none

/-- The classes to which the references of a line count. -/
def dependenciesIn (scope : Scope) (this literal : Name) (line : Text) : List Name :=
  (Reference.inLine line).keys.filterMap (scope.dependency? this literal)

/-- The event of a sighting, where there is one. -/
def eventOf? : Reference.Sighting → Option Event
  | .reference _ => none
  | .tooDeep depth => some (.tooDeep depth)

/-- The tally with a line, the `number`-th of the file, and what happens on it. -/
def addLine (scope : Scope) (path : Path) (literal : Name) (t : Tally) (number : Nat)
    (line : Bytes) : Tally × List Event :=
  match Utf8.decode line with
  | .error cause => ({ t with failedLines := t.failedLines + 1 }, [.badLine path number cause])
  | .ok line =>
    ({ t with counts := (scope.dependenciesIn t.name literal line).foldl countOne t.counts },
      (Reference.sightings line).filterMap eventOf?)

/-- The tally with further lines, the first of them the `number`-th of the file. -/
def addLines (scope : Scope) (path : Path) (literal : Name) (t : Tally) (number : Nat) :
    List Bytes → Tally × List Event
  | [] => (t, [])
  | line :: rest =>
    let (t, events) := scope.addLine path literal t number line
    let (t, more) := addLines scope path literal t (number + 1) rest
    (t, events ++ more)

def lineFeed : UInt8 := 0x0A

/-- The counts with the reference that a nested class makes to the class around it. -/
def addEnclosing (t : Tally) : Tally :=
  if t.name.isInner then { t with counts := countOne t.counts t.name.outer } else t

/-- The tally of a file of the class `literal`. -/
def tally (scope : Scope) (path : Path) (literal : Name) (content : Bytes) : Tally × List Event :=
  let (t, events) := scope.addLines path literal ⟨literal.nearestNamed, SortedMap.empty, 0⟩ 1
    (cut lineFeed content)
  (addEnclosing t, events)

/-- What becomes of a file of the class `literal` that is read, by what reading it gives. -/
def ofReading (scope : Scope) (path : Path) (literal : Name) :
    Except Text Bytes → FileOutcome × List Event
  | .error cause => (.failed, [.unreadable path cause])
  | .ok content =>
    let (t, events) := scope.tally path literal content
    (.counted t, events)

/-- How a file is handled. -/
def handling (scope : Scope) (path : Path) : Handling :=
  match Name.ofPath? scope.root path with
  | .error cause => .settled .failed [.unnamed path cause]
  | .ok literal =>
    if Selection.passes scope.classes literal.nearestNamed then
      .reading (scope.ofReading path literal)
    else .settled (.excluded literal.nearestNamed) [.excludedClass literal.nearestNamed]

theorem handling_of_unnamed {scope : Scope} {path : Path} {cause : NamingError}
    (h : Name.ofPath? scope.root path = .error cause) :
    scope.handling path = .settled .failed [.unnamed path cause] := by
  simp only [handling, h]

theorem handling_of_named {scope : Scope} {path : Path} {literal : Name}
    (h : Name.ofPath? scope.root path = .ok literal) :
    scope.handling path =
      if Selection.passes scope.classes literal.nearestNamed then
        .reading (scope.ofReading path literal)
      else .settled (.excluded literal.nearestNamed) [.excludedClass literal.nearestNamed] := by
  simp only [handling, h]

/-- What becomes of a file. -/
def outcome (scope : Scope) (contents : Contents) (path : Path) : FileOutcome × List Event :=
  (scope.handling path).result (contents path)

/-- Whether a file is read. -/
def reads (scope : Scope) (path : Path) : Bool := (scope.handling path).asks

end Scope

end ClassGraph
