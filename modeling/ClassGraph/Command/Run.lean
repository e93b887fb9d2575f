/-
ClassGraph.Command.Run — carrying out what a command line asks for.

A command reads and changes the tree of files and comes to a status, to what
it writes to its output and its errors, and to the events that it reports. A
failure has the status 1; so has a graph that cannot be written, which is
reported as an event. A success has the status 0, if there is room for its
output.
-/
import ClassGraph.Analysis.Run
import ClassGraph.Command.Program
import ClassGraph.Command.Request
import ClassGraph.Graph.File

namespace ClassGraph

namespace Request

/-- The paths that a request speaks of. -/
def paths (search : List Path) : Request → List Path
  | .analyze _ a => a.root :: (a.settings.toList ++ a.output.toList)
  | .decode d => [d.archive, d.target] ++ Program.candidates search d.program

/-- Whether all events are to be shown. -/
def isVerbose : Request → Bool
  | .analyze verbose _ => verbose
  | .decode _ => false

end Request

/-- What surrounds a command. -/
structure Surroundings where
  storage : Storage
  /-- The directory that relative paths start in. -/
  here : Place
  /-- The directories in which programs are looked for. -/
  search : List Path
  /-- Whether something can still be written to the output. -/
  hasRoom : Bool

/-- What a command comes to. -/
structure Outcome where
  status : Nat
  output : Text
  errors : Text
  events : List Event
  storage : Storage

/-- The status of a command line that asks for nothing known. -/
def usageStatus : Nat := 2

namespace Surroundings

/-- The outcome that a failure is, with its error as a sentence. -/
def fail (w : Surroundings) (events : List Event) (error : Text) : Outcome :=
  ⟨1, [], "Error: ".toList ++ error ++ ['\n'], events, w.storage⟩

/-- The outcome of a command that has done its work and reports it. Without room for the report the
command breaks off. -/
def succeed (w : Surroundings) (events : List Event) (storage : Storage) (report : Text) :
    Outcome :=
  if w.hasRoom then ⟨0, report, [], events, storage⟩
  else
    let error := "failed printing to stdout: ".toList ++ StorageFault.noSpace.message ++ ['\n']
    ⟨101, [], error, events, storage⟩

/-! ## §1 Analysing -/

/-- The outcome of an analysis that has come to its end. -/
def present (w : Surroundings) (events : List Event) (a : AnalyzeRequest) (analysis : Analysis) :
    Outcome :=
  let g := analysis.shown
  match a.output with
  | some p =>
    match g.save a.format a.weights w.storage w.here p with
    | .ok storage => w.succeed events storage (analysis.summary p.display)
    | .error e => ⟨1, [], [], events ++ [.unsaved p e.report], w.storage⟩
  | none =>
    if w.hasRoom then ⟨0, g.write a.format a.weights, [], events, w.storage⟩
    else ⟨1, [], [], events ++ [.unprinted StorageFault.noSpace.message], w.storage⟩

/-- The files of the tree as a source without a stop signal; what is refused cannot be read. -/
def source (w : Surroundings) (refusal : Refusal) : Source :=
  ⟨fun p => w.storage.contentsBut w.here (fun place => (refusal place).map (unreadText p)) p,
    fun _ => false⟩

/-- Carries out an analysis. -/
def analyze (w : Surroundings) (verbose : Bool) (a : AnalyzeRequest)
    (system : System := System.bare) : Outcome :=
  match a.settingsIn w.storage w.here system.refusal with
  | .error e => w.fail [] e.report
  | .ok settings =>
    let events := if verbose then [Event.markers settings.generated.describe] else []
    match settings.options a.parallel with
    | .error e => w.fail events e.message
    | .ok options =>
      let r := Analysis.run w.storage w.here options (w.source system.refusal) List.range false
        a.root (w.storage.closedBut w.here system.refusal)
      let events := events ++ r.events
      match r.result with
      | .error e => w.fail events e.report
      | .ok analysis => w.present events a analysis

/-! ## §2 Decoding -/

def trimmed (errors : Bytes) : Text := (Utf8.lenient errors).trim

/-- Carries out the decoding of an archive. -/
def decode (w : Surroundings) (d : DecodeRequest) (system : System := System.bare) : Outcome :=
  match w.storage.find w.here d.archive with
  | .ok (_, .file ..) =>
    let events := [Event.decoding d.archive d.target d.apiLevel]
    match Program.run system w.storage w.here w.search d.program d.programArguments with
    | .error fault =>
      w.fail events ("Failed to run ".toList ++ d.program.display ++ [':', ' '] ++ fault.message)
    | .ok ⟨.exited 0, _, storage⟩ =>
      w.succeed events storage ("Decoded ".toList ++ d.archive.display ++ " into ".toList
        ++ d.target.display ++ ['\n'])
    | .ok ⟨ending, errors, storage⟩ =>
      { w with storage := storage }.fail events (d.program.display ++ " exited with ".toList
        ++ ending.describe ++ [':', ' '] ++ trimmed errors)
  | _ => w.fail [] ("Archive not found: ".toList ++ d.archive.display)

/-! ## §3 Any command -/

/-- Carries out a request. -/
def perform (w : Surroundings) (request : Request) (system : System := System.bare) : Outcome :=
  match request with
  | .analyze verbose a => w.analyze verbose a system
  | .decode d => w.decode d system

/-- Carries out what the words of a command line ask for; none where they ask for nothing known. -/
def run? (w : Surroundings) (words : List Text) (system : System := System.bare) :
    Option Outcome :=
  (Request.read? words).map fun request => w.perform request system

end Surroundings

end ClassGraph
