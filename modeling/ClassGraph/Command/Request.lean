/-
ClassGraph.Command.Request — what a command line asks for.

There are two commands, `analyze` and `decode`; `--verbose` may stand before
the command and once more after it. Anything else is a mistake in usage.
-/
import ClassGraph.Command.Arguments
import ClassGraph.Graph.Export
import ClassGraph.Settings.Basic
import ClassGraph.Storage.Resolve

namespace ClassGraph

/-- What `analyze` is asked for. -/
structure AnalyzeRequest where
  root : Path
  /-- The file of settings. -/
  settings : Option Path
  package : Option Text
  ignored : List Text
  keepsNested : Bool
  markers : List Text
  parallel : Bool
  format : Format
  weights : Bool
  /-- Where the graph is written, where not to the output. -/
  output : Option Path
  deriving DecidableEq

/-- What `decode` is asked for. -/
structure DecodeRequest where
  archive : Path
  target : Path
  apiLevel : Nat
  /-- The program that takes the archive apart. -/
  program : Path
  deriving DecidableEq

/-- What a command line asks for. -/
inductive Request where
  | analyze (verbose : Bool) (a : AnalyzeRequest)
  | decode (d : DecodeRequest)
  deriving DecidableEq

/-- A path, which may not be empty. -/
def pathOf? (word : Text) : Option Path := if word.isEmpty then none else some (Path.ofText word)

/-- The path that an option gives, if it is given. -/
def optionalPath? : Option Text → Option (Option Path)
  | none => some none
  | some word => (pathOf? word).map some

/-- A written form by name. -/
def Format.ofName? (name : Text) : Option Format :=
  if name == "csv".toList then some .csv
  else if name == "json".toList then some .json
  else if name == "dot".toList then some .dot
  else none

namespace AnalyzeRequest

/-- The options of `analyze`. -/
def specs : List OptionSpec :=
  [⟨"filters".toList, none, .single⟩, ⟨"package".toList, none, .single⟩,
    ⟨"ignore".toList, none, .many⟩, ⟨"inner".toList, none, .flag⟩,
    ⟨"generated-marker".toList, none, .many⟩, ⟨"parallel".toList, none, .flag⟩,
    ⟨"format".toList, none, .single⟩, ⟨"weights".toList, none, .flag⟩,
    ⟨"output".toList, some 'o', .single⟩]

/-- The request in arguments. -/
def ofArguments? (a : Arguments) : Option AnalyzeRequest := do
  let [root] := a.operands | none
  let root ← pathOf? root
  let settings ← optionalPath? (a.value? "filters".toList)
  let output ← optionalPath? (a.value? "output".toList)
  let format ← Format.ofName? ((a.value? "format".toList).getD "csv".toList)
  return {
    root := root, settings := settings, package := a.value? "package".toList,
    ignored := a.values "ignore".toList, keepsNested := a.has "inner".toList,
    markers := a.values "generated-marker".toList, parallel := a.has "parallel".toList,
    format := format, weights := a.has "weights".toList, output := output }

/-- The request in the words after the command. -/
def read? (words : List Text) : Option AnalyzeRequest :=
  (Arguments.read? specs words).bind ofArguments?

/-- The settings of the request, over those of the file. -/
def override (r : AnalyzeRequest) (s : Settings) : Settings :=
  { s with
    package := r.package <|> s.package, keepsNested := s.keepsNested || r.keepsNested,
    ignored := s.ignored ++ r.ignored,
    markers := if r.markers.isEmpty then s.markers else some r.markers }

/-- The settings in force, with those of the file that the request names. -/
def settingsIn (r : AnalyzeRequest) (s : Storage) (here : Place)
    (refusal : Refusal := Refusal.nothing) : Except SettingsError Settings :=
  match r.settings with
  | none => .ok (r.override Settings.usual)
  | some p => (Settings.ofFile p (s.readBut here refusal p)).map r.override

end AnalyzeRequest

namespace DecodeRequest

/-- The options of `decode`. -/
def specs : List OptionSpec :=
  [⟨"api-level".toList, none, .single⟩, ⟨"apktool".toList, none, .single⟩]

/-- The greatest level of the programming interface. -/
def maxApiLevel : Nat := UInt32.size - 1

/-- A level of the programming interface; its digits may follow a sign. -/
def apiLevel? : Text → Option Nat
  | '-' :: digits => (readDecimal digits).filter fun n => n = 0
  | '+' :: digits => (readDecimal digits).filter fun n => n ≤ maxApiLevel
  | digits => (readDecimal digits).filter fun n => n ≤ maxApiLevel

/-- The request in arguments. -/
def ofArguments? (a : Arguments) : Option DecodeRequest := do
  let [target, archive] := a.operands | none
  let archive ← pathOf? archive
  let target ← pathOf? target
  let apiLevel ← apiLevel? ((a.value? "api-level".toList).getD "15".toList)
  let program ← pathOf? ((a.value? "apktool".toList).getD "apktool".toList)
  return ⟨archive, target, apiLevel, program⟩

/-- The words that the program is run with. -/
def programArguments (d : DecodeRequest) : List Path :=
  ["d", "-f", "-r", "--api-level"].map (fun w => Path.ofText w.toList)
    ++ [Path.ofText (decimal d.apiLevel), Path.ofText "-o".toList, d.target, d.archive]

end DecodeRequest

namespace Request

/-- The option that all commands share. -/
def verbose : OptionSpec := ⟨"verbose".toList, some 'v', .flag⟩

/-- The arguments before the command, the command, and the words after it. -/
def split? (a : Arguments) : List Text → Option (Arguments × Text × List Text)
  | [] => none
  | word :: rest =>
    if Arguments.looksLikeOption word then
      if word = ['-', '-'] then none
      else (a.word? [verbose] word).bind fun a => split? a rest
    else some (a, word, rest)

/-- The request in the words of a command line. -/
def read? (words : List Text) : Option Request := do
  let (before, command, rest) ← split? Arguments.start words
  if command == "analyze".toList then
    let a ← Arguments.read? (verbose :: AnalyzeRequest.specs) rest
    let r ← AnalyzeRequest.ofArguments? a
    return .analyze (before.has verbose.name || a.has verbose.name) r
  else if command == "decode".toList then
    let a ← Arguments.read? (verbose :: DecodeRequest.specs) rest
    let r ← DecodeRequest.ofArguments? a
    return .decode r
  else none

end Request

end ClassGraph
