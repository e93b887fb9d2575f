/-
ClassGraph.Settings.Basic — the settings of an analysis, as they are kept in
a file and as they are put to use.

The file holds a JSON object whose members are named `keys`, or an array of
the same values in that order. Members with other names are left alone, a
name may not come twice, and what is left out has its usual value.
-/
import ClassGraph.Analysis.Basic
import ClassGraph.Settings.Json
import ClassGraph.Text.Blank

namespace ClassGraph

/-- The settings of an analysis. -/
structure Settings where
  /-- The package to which paths are restricted. -/
  package : Option Text
  /-- Whether nested classes stay in the graph that is shown. -/
  keepsNested : Bool
  /-- Patterns of the names of classes that are left out. -/
  ignored : List Text
  /-- The markers of generated classes, where they are not the usual ones. -/
  markers : Option (List Text)
  /-- The markers of unsupported features, where they are not the usual ones. -/
  unsupported : Option (List Text)
  deriving DecidableEq

/-- Why there are no settings. -/
inductive SettingsError where
  /-- The file cannot be read, or is not text. -/
  | unreadable (path : Path) (cause : Text)
  /-- The text of the file is not that of settings. -/
  | malformed (path : Path)
  deriving DecidableEq

/-- The error as a sentence, without its cause. -/
def SettingsError.message : SettingsError → Text
  | unreadable path _ => "Failed to read filter config: ".toList ++ path.display
  | malformed path => "Failed to parse filter config: ".toList ++ path.display

/-- The error as a sentence, with its cause where that is known. -/
def SettingsError.report (e : SettingsError) : Text :=
  match e with
  | unreadable _ cause => e.message ++ [':', ' '] ++ cause
  | malformed _ => e.message

namespace Settings

/-- The settings where nothing is set. -/
def usual : Settings := ⟨none, false, [], none, none⟩

/-! ## §1 Reading -/

/-- The names of the settings, in order. -/
def keys : List Text :=
  ["package-name".toList, "show-inners".toList, "ignored-classes".toList,
    "generated-markers".toList, "unsupported-markers".toList]

/-- The text that a value is. -/
def text? : JsonValue → Option Text
  | .text s => s
  | _ => none

/-- The list of texts that a value is. -/
def texts? : JsonValue → Option (List Text)
  | .array elements => elements.mapM text?
  | _ => none

/-- What a value that may be null stands for. -/
def optional? {α : Type} (read : JsonValue → Option α) : JsonValue → Option (Option α)
  | .null => some none
  | v => (read v).map some

/-- The settings with the `n`-th of them set to a value. -/
def set? (s : Settings) (n : Nat) (v : JsonValue) : Option Settings :=
  match n with
  | 0 => (optional? text? v).map fun p => { s with package := p }
  | 1 =>
    match v with
    | .bool b => some { s with keepsNested := b }
    | _ => none
  | 2 => (texts? v).map fun l => { s with ignored := l }
  | 3 => (optional? texts? v).map fun m => { s with markers := m }
  | 4 => (optional? texts? v).map fun m => { s with unsupported := m }
  | _ => none

/-- The settings with members of an object read into them; `seen` are the names read before. -/
def ofMembers (s : Settings) (seen : List Text) :
    List (Option Text × JsonValue) → Option Settings
  | [] => some s
  | (none, _) :: _ => none
  | (some key, v) :: rest =>
    if key ∈ keys then
      if key ∈ seen then none
      else (s.set? (keys.idxOf key) v).bind fun s => ofMembers s (key :: seen) rest
    else ofMembers s seen rest

/-- The settings with the elements of an array read into them, the first of them as the `n`-th. -/
def ofElements (s : Settings) (n : Nat) : List JsonValue → Option Settings
  | [] => some s
  | v :: rest => (s.set? n v).bind fun s => ofElements s (n + 1) rest

/-- The settings that a value stands for. -/
def ofJson? : JsonValue → Option Settings
  | .object members => ofMembers usual [] members
  | .array elements => ofElements usual 0 elements
  | _ => none

def read? (s : Text) : Option Settings := (JsonValue.read? s).bind ofJson?

/-- The settings in a file, by its bytes or why there are none. -/
def ofFile (path : Path) (content : Except Text Bytes) : Except SettingsError Settings :=
  match content with
  | .error cause => .error (.unreadable path cause)
  | .ok content =>
    match Utf8.decode content with
    | .error _ => .error (.unreadable path "stream did not contain valid UTF-8".toList)
    | .ok s =>
      match read? s with
      | some settings => .ok settings
      | none => .error (.malformed path)

/-! ## §2 Using -/

/-- A text as a pattern that matches it alone. -/
def escape (s : Text) : Text := s.flatMap fun c => if Reader.isMeta c then ['\\', c] else [c]

/-- The parts of a package name. -/
def packageParts (package : Text) : List Text :=
  (cut '.' package.trim).filter fun part => !part.isEmpty

/-- The pattern of the paths below a package: its parts between separators of either kind. -/
def packagePattern (parts : List Text) : Text :=
  ".*".toList ++ join "[/\\\\]".toList (parts.map escape) ++ ".*".toList

/-- The selection of paths, where a package is set. -/
def paths (s : Settings) : Except InvalidPattern (Option Selection) :=
  let parts := s.package.elim [] packageParts
  if parts.isEmpty then .ok none else (Selection.ofPattern (packagePattern parts)).map some

/-- The selection of the classes that no pattern of a list matches. -/
def excluded : List Text → Except InvalidPattern Selection
  | [] => .ok .everything
  | written :: rest =>
    (Selection.ofExcluded written).bind fun a => (excluded rest).map fun b => .both a b

/-- The selection of classes, where patterns are set. -/
def classes (s : Settings) : Except InvalidPattern (Option Selection) :=
  if s.ignored.isEmpty then .ok none else (excluded s.ignored).map some

def generated (s : Settings) : Markers := s.markers.elim Markers.usual Markers.ofList

/-- The features that stop an analysis. -/
def features (s : Settings) : List Feature :=
  s.unsupported.elim [Feature.instantRun] fun l => l.map fun m => ⟨m, Path.ofText m⟩

/-- What an analysis with these settings is asked for. -/
def options (s : Settings) (parallel : Bool) : Except InvalidPattern Options :=
  s.paths.bind fun paths => s.classes.map fun classes =>
    { keepsNested := s.keepsNested, paths := paths, classes := classes, generated := s.generated,
      unsupported := s.features, parallel := parallel }

end Settings

end ClassGraph
