/-
ClassGraph.Analysis.Basic — what an analysis is asked for, what it yields,
and why it may yield nothing.
-/
import ClassGraph.Event
import ClassGraph.Graph.Basic
import ClassGraph.Marker
import ClassGraph.Selection

namespace ClassGraph

/-- A feature of a build that an analysis cannot handle, told by a file below the root. -/
structure Feature where
  name : Text
  marker : Path
  deriving DecidableEq

/-- The feature that is looked for where nothing else is asked for. -/
def Feature.instantRun : Feature :=
  ⟨"Instant Run".toList, Path.ofText "unknown/instant-run.zip".toList⟩

/-- What an analysis is asked for. -/
structure Options where
  /-- Whether nested classes stay in the graph that is shown. -/
  keepsNested : Bool
  paths : Option Selection
  classes : Option Selection
  generated : Markers
  unsupported : List Feature
  /-- Whether files are handled in no fixed order. -/
  parallel : Bool

/-- Why an analysis yields nothing. -/
inductive RunError where
  | rootMissing (root : Path)
  | unsupported (feature : Text) (marker : Path)
  | cancelled
  /-- The root exists but has no path of its own. -/
  | storage (cause : Text) (root : Path)
  deriving DecidableEq

/-- The error as a sentence. -/
def RunError.message : RunError → Text
  | rootMissing root => root.display ++ " does not exist".toList
  | unsupported feature marker =>
    "unsupported build feature detected (".toList ++ feature ++ " found at ".toList
      ++ marker.display ++ "); disable it and rebuild the app".toList
  | cancelled => "analysis cancelled".toList
  | storage cause root =>
    "I/O error: ".toList ++ cause ++ " (path: ".toList ++ root.display ++ [')']

/-- The error as a sentence, with its cause where it has one. -/
def RunError.report (e : RunError) : Text :=
  match e with
  | storage cause _ => e.message ++ [':', ' '] ++ cause
  | _ => e.message

/-- What an analysis yields. -/
structure Analysis where
  /-- The root, by the path without links that leads to it. -/
  root : Path
  /-- The graph of all classes. -/
  raw : Graph
  keepsNested : Bool
  stats : Stats
  deriving DecidableEq

def Analysis.shown (a : Analysis) : Graph := a.raw.project (!a.keepsNested)

/-- The line under the heading of a summary. -/
def summaryRule : Text := List.replicate 60 '='

/-- The summary of an analysis whose graph was written to a destination. -/
def Analysis.summary (a : Analysis) (destination : Text) : Text :=
  let g := a.shown
  let line (s : Text) : Text := s ++ ['\n']
  line ("Dependency graph for ".toList ++ a.root.display) ++ line summaryRule
    ++ line ("  Classes: ".toList ++ decimal g.vertexCount)
    ++ line ("  Edges: ".toList ++ decimal g.edgeCount)
    ++ line ("  Total references: ".toList ++ decimal g.totalWeight)
    ++ line ("  Inner classes: ".toList
      ++ if a.keepsNested then "kept".toList else "collapsed".toList)
    ++ line ("  ".toList ++ a.stats.describe)
    ++ line ("  Written to: ".toList ++ destination)

end ClassGraph
