/-
ClassGraph.Stats — what a run has seen, in numbers.
-/
import ClassGraph.Text.Basic

namespace ClassGraph

/-- The numbers of a run. -/
structure Stats where
  /-- Class files found, before any selection. -/
  seen : Nat
  /-- Files whose references were counted. -/
  processed : Nat
  /-- Counted files without a reference. -/
  withoutReferences : Nat
  /-- Files left out by the selection of paths. -/
  excludedByPath : Nat
  /-- Files left out by the selection of classes. -/
  excludedByClass : Nat
  /-- Files that have no class name or could not be read. -/
  failed : Nat
  /-- Lines that are not text. -/
  failedLines : Nat
  /-- Places of the tree that could not be visited. -/
  unvisited : Nat
  deriving DecidableEq, Repr

/-- The numbers as a sentence. -/
def Stats.describe (s : Stats) : Text :=
  "Found ".toList ++ decimal s.seen ++ " smali files (processed: ".toList ++ decimal s.processed
    ++ ", no dependencies: ".toList ++ decimal s.withoutReferences
    ++ ", path-filtered: ".toList ++ decimal s.excludedByPath
    ++ ", class-filtered: ".toList ++ decimal s.excludedByClass
    ++ ", failed: ".toList ++ decimal s.failed ++ [')']

end ClassGraph
