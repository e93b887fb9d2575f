/-
ClassGraph.Storage.Change — changing a tree by paths.

Each change looks its path up first and then puts or removes one entry, so
the laws of `put` and `remove` say all that it does. Where a path does not
lead to what the change is about, the tree stays as it is.
-/
import ClassGraph.Storage.Resolve

namespace ClassGraph

namespace Storage

/-- The tree with content in the file that a path leads to, which is made where it is absent. -/
def write (s : Storage) (here : Place) (p : Path) (content : Bytes) : Except StorageFault Storage :=
  match s.lookUp here true p with
  | .ok (.existing place (.file _ runnable)) =>
    .ok (s.put place.dropLast (place.getLastD []) (.file content runnable))
  | .ok (.existing ..) => .error .isDirectory
  | .ok (.vacant parent name) => .ok (s.put parent name (.file content false))
  | .error fault => .error fault

/-- The tree with a directory where a path leads, and nothing else changed. -/
def makeDirectory (s : Storage) (here : Place) (p : Path) : Storage :=
  match s.lookUp here true p with
  | .ok (.vacant parent name) => s.put parent name .directory
  | _ => s

/-- The beginnings of a list, shortest first, the empty one left out. -/
def beginnings {α : Type} : List α → List (List α)
  | [] => []
  | a :: rest => [a] :: (beginnings rest).map (a :: ·)

/-- The tree with directories all along a path. -/
def makeDirectories (s : Storage) (here : Place) (p : Path) : Storage :=
  (beginnings (cut Path.slash p)).foldl
    (fun s segments => s.makeDirectory here (join [Path.slash] segments)) s

/-- The tree with a link where a path leads, if nothing is there. -/
def link (s : Storage) (here : Place) (p target : Path) : Storage :=
  match s.lookUp here false p with
  | .ok (.vacant parent name) => s.put parent name (.link target)
  | _ => s

/-- The tree with a file made fit to be run. -/
def makeRunnable (s : Storage) (here : Place) (p : Path) : Storage :=
  match s.lookUp here true p with
  | .ok (.existing place (.file content _)) =>
    s.put place.dropLast (place.getLastD []) (.file content true)
  | _ => s

/-- The tree without what a path leads to. -/
def erase (s : Storage) (here : Place) (p : Path) : Storage :=
  match s.lookUp here false p with
  | .ok (.existing place _) => s.remove place
  | _ => s

end Storage

end ClassGraph
