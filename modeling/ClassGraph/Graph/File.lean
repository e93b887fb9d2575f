/-
ClassGraph.Graph.File — a graph in a file.

The written form of a graph becomes the whole content of the file that a path
leads to.
-/
import ClassGraph.Graph.Export
import ClassGraph.Storage.Change

namespace ClassGraph

/-- Why a graph is not in a file: the file cannot be had. -/
structure SaveError where
  path : Path
  cause : StorageFault
  deriving DecidableEq

def SaveError.message (e : SaveError) : Text := "Cannot create ".toList ++ e.path.display

def SaveError.report (e : SaveError) : Text := e.message ++ [':', ' '] ++ e.cause.message

/-- The tree with a graph in the file that a path leads to. -/
def Graph.save (g : Graph) (format : Format) (weights : Bool) (s : Storage) (here : Place)
    (p : Path) : Except SaveError Storage :=
  match s.write here p (Utf8.encode (g.write format weights)) with
  | .ok s => .ok s
  | .error fault => .error ⟨p, fault⟩

end ClassGraph
