/-
ClassGraph.Event — what is worth telling about a run while it goes on.

Each kind of event has a level, a message and named fields, all of them text.
-/
import ClassGraph.Name.OfPath
import ClassGraph.Stats

namespace ClassGraph

/-- How much an event matters. -/
inductive Level where
  | debug
  | info
  | warn
  | error
  deriving DecidableEq, Repr

/-- The name of a level. -/
def Level.name : Level → Text
  | debug => "DEBUG".toList
  | info => "INFO".toList
  | warn => "WARN".toList
  | error => "ERROR".toList

/-- Something that happened. -/
inductive Event where
  /-- An analysis begins. -/
  | started (root : Path)
  /-- The root of an analysis is missing. -/
  | rootMissing (root : Path)
  /-- The file stands in the tree by which an unsupported feature is told. -/
  | unsupported (feature : Text) (marker : Path)
  /-- An analysis was stopped. -/
  | cancelled
  /-- An analysis is complete. -/
  | finished (stats : Stats) (classes edges : Nat)
  /-- A place in the tree cannot be visited. -/
  | unvisited (path : Path) (cause : Text)
  /-- A file is left out by the selection of paths. -/
  | excludedPath (path : Path)
  /-- A file has no class name. -/
  | unnamed (path : Path) (cause : NamingError)
  /-- A file is left out by the selection of classes. -/
  | excludedClass (name : Name)
  /-- A file cannot be read. -/
  | unreadable (path : Path) (cause : Text)
  /-- A line is not text. -/
  | badLine (path : Path) (number : Nat) (cause : Utf8.DecodeError)
  /-- Type arguments lie too deep to be read. -/
  | tooDeep (depth : Nat)
  /-- The markers of generated classes that an analysis goes by. -/
  | markers (list : Text)
  /-- A graph cannot be written to a file. -/
  | unsaved (destination : Path) (cause : Text)
  /-- A graph cannot be written to the output. -/
  | unprinted (cause : Text)
  /-- An archive is about to be taken apart. -/
  | decoding (archive target : Path) (apiLevel : Nat)
  deriving DecidableEq, Repr

/-- A character between quotation marks, control characters and the marks themselves escaped. -/
def quotedChar (c : Char) : Text :=
  if c = '"' then ['\\', '"']
  else if c = '\\' then ['\\', '\\']
  else if c = '\n' then ['\\', 'n']
  else if c = '\r' then ['\\', 'r']
  else if c = '\t' then ['\\', 't']
  else if c.toNat = 0 then ['\\', '0']
  else if c.toNat < 32 ∨ c.toNat = 127 then
    "\\u\x7b".toList ++ Nat.toDigits 16 c.toNat ++ ['\x7d']
  else [c]

def Path.quoted (p : Path) : Text := '"' :: p.display.flatMap quotedChar ++ ['"']

namespace Event

/-- The level of an event. -/
def level : Event → Level
  | started _ => .info
  | rootMissing _ => .error
  | unsupported .. => .error
  | cancelled => .info
  | finished .. => .info
  | unvisited .. => .warn
  | excludedPath _ => .debug
  | unnamed .. => .warn
  | excludedClass _ => .debug
  | unreadable .. => .warn
  | badLine .. => .warn
  | tooDeep _ => .debug
  | markers _ => .debug
  | unsaved .. => .error
  | unprinted _ => .error
  | decoding .. => .info

/-- The message of an event. -/
def message : Event → Text
  | started _ => "Analyzing dependencies...".toList
  | rootMissing _ => "Input root does not exist".toList
  | unsupported .. => "Unsupported build feature detected; disable it and rebuild the app".toList
  | cancelled => "Analysis cancelled".toList
  | finished stats _ _ => stats.describe
  | unvisited _ cause => "Cannot visit entry: ".toList ++ cause
  | excludedPath _ => "Skipped by path filter".toList
  | unnamed _ cause => "Cannot derive class name: ".toList ++ cause.message
  | excludedClass _ => "Skipped by class filter".toList
  | unreadable _ cause => "Cannot read file: ".toList ++ cause
  | badLine _ _ cause => "Skipping line: ".toList ++ cause.message
  | tooDeep _ => "generic nesting too deep, arguments skipped".toList
  | markers _ => "Generated class markers".toList
  | unsaved _ cause => "Cannot write graph: ".toList ++ cause
  | unprinted cause => "Failed to write graph to stdout: ".toList ++ cause
  | decoding .. => "Decoding archive".toList

/-- The fields of an event, by name. -/
def fields : Event → List (Text × Text)
  | started root => [("root".toList, root.display)]
  | rootMissing root => [("root".toList, root.display)]
  | unsupported feature marker => [("feature".toList, feature), ("marker".toList, marker.display)]
  | cancelled => []
  | finished _ classes edges =>
    [("classes".toList, decimal classes), ("edges".toList, decimal edges)]
  | unvisited path _ => [("path".toList, "Some(".toList ++ path.quoted ++ [')'])]
  | excludedPath path => [("path".toList, path.display)]
  | unnamed path _ => [("path".toList, path.display)]
  | excludedClass name => [("class".toList, name)]
  | unreadable path _ => [("path".toList, path.display)]
  | badLine path number _ => [("path".toList, path.display), ("line".toList, decimal number)]
  | tooDeep depth => [("depth".toList, decimal depth)]
  | markers list => [("markers".toList, list)]
  | unsaved destination _ => [("destination".toList, destination.display)]
  | unprinted _ => []
  | decoding archive target apiLevel =>
    [("archive".toList, archive.display), ("out".toList, target.display),
      ("api_level".toList, decimal apiLevel)]

/-- An event on one line: its level, its message, and its fields. -/
def line (e : Event) : Text :=
  join [' '] (e.level.name :: e.message :: e.fields.map fun (name, v) => name ++ '=' :: v)

end Event

end ClassGraph
