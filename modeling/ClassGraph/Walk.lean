/-
ClassGraph.Walk — the class files below a directory.

The places of a tree are kept in order, a directory before what it holds, so
the files below a directory stand together, in the order of a descent that
takes each directory's entries by name. Links below the root are not
followed; a root that is a link to a directory is. A directory may be closed,
that is, its entries cannot be had: then the walk says so where it comes to
the directory, and goes on behind it. The main statements:

  * `filesBelow_pairwise` — the files come in strictly increasing order;
  * `mem_filesBelow`      — they are the files that lie below the place.
-/
import ClassGraph.Event
import ClassGraph.Selection
import ClassGraph.Storage.Resolve

namespace ClassGraph

/-- The class files of a tree. -/
structure Walk where
  /-- The paths of the files that take part, in order. -/
  files : List Path
  /-- The number of class files that the selection leaves out. -/
  excluded : Nat
  /-- The number of places that could not be visited. -/
  unvisited : Nat
  deriving DecidableEq

namespace Storage

/-- The segments from `place` down to another place below it. -/
def below? (place other : Place) : Option (List Segment) :=
  if place.isPrefixOf other && place.length < other.length then some (other.drop place.length)
  else none

/-- The segments from a place down to an entry, where that is a file below it. -/
def fileBelow? (place : Place) (binding : Place × Entry) : Option (List Segment) :=
  match binding.2 with
  | .file .. => below? place binding.1
  | _ => none

/-- The files below a place, by the segments that lead down to them. -/
def filesBelow (s : Storage) (place : Place) : List (List Segment) :=
  s.entries.toList.filterMap (fileBelow? place)

/-- The entries below a place, each with the segments that lead down to it. -/
def entriesBelow (s : Storage) (place : Place) : List (List Segment × Entry) :=
  s.entries.toList.filterMap fun (other, e) => (below? place other).map fun rest => (rest, e)

theorem below?_eq_some {place other rest : Place} :
    below? place other = some rest ↔ other = place ++ rest ∧ rest ≠ [] := by
  unfold below?
  constructor
  · intro h
    split at h
    · next hp =>
      simp only [Bool.and_eq_true, decide_eq_true_eq, List.isPrefixOf_iff_prefix] at hp
      obtain ⟨⟨t, rfl⟩, hlt⟩ := hp
      simp at h
      subst h
      refine ⟨rfl, fun e => ?_⟩
      simp [e] at hlt
    · cases h
  · rintro ⟨rfl, hne⟩
    have : 0 < rest.length := List.length_pos_iff.2 hne
    simp [this]

theorem mem_filesBelow {s : Storage} {place rest : Place} :
    rest ∈ s.filesBelow place ↔
      rest ≠ [] ∧ ∃ content runnable, s.at? (place ++ rest) = some (.file content runnable) := by
  simp only [filesBelow, List.mem_filterMap, fileBelow?]
  constructor
  · rintro ⟨⟨p, e⟩, hmem, h⟩
    cases e with
    | file content runnable =>
      obtain ⟨rfl, hne⟩ := below?_eq_some.1 h
      refine ⟨hne, content, runnable, ?_⟩
      rw [at?, entryIn, if_neg (by simp [hne])]
      exact SortedMap.find?_eq_some_iff.2 hmem
    | link target => cases h
    | directory => cases h
  · rintro ⟨hne, content, runnable, h⟩
    rw [at?, entryIn, if_neg (by simp [hne])] at h
    exact ⟨(place ++ rest, .file content runnable), SortedMap.find?_eq_some_iff.1 h,
      below?_eq_some.2 ⟨rfl, hne⟩⟩

theorem mem_entriesBelow {s : Storage} {place rest : Place} {e : Entry} :
    (rest, e) ∈ s.entriesBelow place ↔ rest ≠ [] ∧ s.at? (place ++ rest) = some e := by
  simp only [entriesBelow, List.mem_filterMap]
  constructor
  · rintro ⟨⟨p, e'⟩, hmem, h⟩
    obtain ⟨rest', hbelow, h⟩ := Option.map_eq_some_iff.1 h
    cases h
    obtain ⟨rfl, hne⟩ := below?_eq_some.1 hbelow
    refine ⟨hne, ?_⟩
    rw [at?, entryIn, if_neg (by simp [hne])]
    exact SortedMap.find?_eq_some_iff.2 hmem
  · intro h
    obtain ⟨hne, hat⟩ := h
    rw [at?, entryIn, if_neg (by simp [hne])] at hat
    refine ⟨(place ++ rest, e), SortedMap.find?_eq_some_iff.1 hat, ?_⟩
    rw [below?_eq_some.2 ⟨rfl, hne⟩]
    rfl

theorem lt_of_append_lt_append {place a b : Place} (h : place ++ a < place ++ b) : a < b := by
  induction place with
  | nil => simpa using h
  | cons name place ih =>
    rw [List.cons_append, List.cons_append, List.cons_lt_cons_iff] at h
    rcases h with h | ⟨_, h⟩
    · exact absurd h (StrictOrder.irrefl name)
    · exact ih h

theorem filesBelow_pairwise (s : Storage) (place : Place) :
    (s.filesBelow place).Pairwise (· < ·) := by
  refine List.Pairwise.filterMap (fileBelow? place) ?_ s.entries.inOrder
  rintro ⟨p, e⟩ ⟨q, e'⟩ hlt a ha b hb
  cases e with
  | file =>
    cases e' with
    | file =>
      obtain ⟨rfl, -⟩ := below?_eq_some.1 ha
      obtain ⟨rfl, -⟩ := below?_eq_some.1 hb
      exact lt_of_append_lt_append hlt
    | link => cases hb
    | directory => cases hb
  | link => cases ha
  | directory => cases ha

end Storage

/-- Why the entries of the directory at a path cannot be had, where they cannot. -/
abbrev Closed := Path → Option Text

/-- Every directory gives its entries. -/
def Closed.nowhere : Closed := fun _ => none

namespace Walk

/-- The path of a file, by the path of the root and the segments that lead down. -/
def pathBelow (root : Path) (segments : List Segment) : Path := segments.foldl Path.extend root

def isSource (name : Segment) : Bool := Name.isSourceFile (Utf8.lenient name)

/-! ## What a walk comes upon -/

/-- A place that a walk comes upon. -/
inductive Visit where
  /-- A class file. -/
  | file (path : Path)
  /-- A place that cannot be visited. -/
  | unvisited (path : Path) (cause : Text)
  deriving DecidableEq

/-- Whether no directory is closed on the way that segments lead down, the first one included. -/
def isOpen (closed : Closed) (top : Path) : List Segment → Bool
  | [] => true
  | name :: rest => (closed top).isNone && isOpen closed (top.extend name) rest

/-- What a walk comes upon at an entry: a class file, or a directory that is closed. -/
def visit? (closed : Closed) (root : Path) (segments : List Segment) (e : Entry) : Option Visit :=
  let path := pathBelow root segments
  if isOpen closed root segments then
    match e with
    | .file .. => if isSource (segments.getLastD []) then some (.file path) else none
    | .directory => (closed path).map (.unvisited path)
    | .link _ => none
  else none

/-- What a walk comes upon in the directory at a place and below it. -/
def visitsBelow (s : Storage) (closed : Closed) (root : Path) (place : Place) : List Visit :=
  (([], .directory) :: s.entriesBelow place).filterMap fun (segments, e) =>
    visit? closed root segments e

/-- What a walk comes upon from a root: the file that it leads to, or all that lies below it. -/
def visits (s : Storage) (here : Place) (root : Path) (closed : Closed) : List Visit :=
  match s.lookUp here false root with
  | .error fault => [.unvisited root fault.message]
  | .ok (.vacant ..) => [.unvisited root StorageFault.missing.message]
  | .ok (.existing place .directory) => visitsBelow s closed root place
  | .ok (.existing _ (.file ..)) =>
    if isSource ((Path.fileName? root).getD root) then [.file root] else []
  | .ok (.existing _ (.link _)) =>
    match s.find here root with
    | .ok (place, .directory) => visitsBelow s closed root place
    | .ok _ => []
    | .error fault => [.unvisited root fault.message]

/-! ## What it makes of that -/

/-- The event of a place that cannot be visited. -/
def unvisitedEvent (path : Path) (cause : Text) : Event :=
  .unvisited path ("IO error for operation on ".toList ++ Path.display path ++ [':', ' '] ++ cause)

/-- The walk over what it comes upon, and the events of leaving some out. -/
def ofVisits (paths : Option Selection) : List Visit → Walk × List Event
  | [] => (⟨[], 0, 0⟩, [])
  | .file file :: rest =>
    let (w, events) := ofVisits paths rest
    if Selection.passes paths (Path.display file) then ({ w with files := file :: w.files }, events)
    else ({ w with excluded := w.excluded + 1 }, .excludedPath file :: events)
  | .unvisited path cause :: rest =>
    let (w, events) := ofVisits paths rest
    ({ w with unvisited := w.unvisited + 1 }, unvisitedEvent path cause :: events)

/-- The walk from a root. -/
def ofRoot (s : Storage) (here : Place) (root : Path) (paths : Option Selection)
    (closed : Closed := Closed.nowhere) : Walk × List Event :=
  ofVisits paths (visits s here root closed)

end Walk

end ClassGraph
