/-
ClassGraph.Command.Program — finding a program and running it.

A program whose name holds a slash is the file that its path leads to; any
other is looked for below the directories of a search path, of which the
first that has it decides. What the program then does is no part of this
library: a system says what comes of running it, and what it refuses of the
tree of files.
-/
import ClassGraph.Storage.Resolve

namespace ClassGraph

/-- How a program ends. -/
inductive Ending where
  /-- With a status, zero for success. -/
  | exited (status : Nat)
  /-- By a signal. -/
  | signalled (number : Nat)
  deriving DecidableEq, Repr

namespace Ending

/-- The signals by name. -/
def signals : List (Text × Nat) :=
  [("HUP", 1), ("INT", 2), ("QUIT", 3), ("ILL", 4), ("TRAP", 5), ("ABRT", 6), ("BUS", 7),
    ("FPE", 8), ("KILL", 9), ("USR1", 10), ("SEGV", 11), ("USR2", 12), ("PIPE", 13), ("ALRM", 14),
    ("TERM", 15)].map fun (name, n) => (name.toList, n)

/-- An ending in words. -/
def describe : Ending → Text
  | exited status => "exit status: ".toList ++ decimal status
  | signalled n =>
    let name := (signals.find? fun p => p.2 == n).elim [] fun p => " (SIG".toList ++ p.1 ++ [')']
    "signal: ".toList ++ decimal n ++ name

end Ending

/-- What comes of running a program. -/
structure Finished where
  ending : Ending
  /-- What it has written to its errors. -/
  errors : Bytes
  storage : Storage

/-- What lies beyond the tree of files. -/
structure System where
  /-- What comes of running a program that has been found, or why it cannot be started: in a tree
  and a directory of it, by its path, its content and its arguments. -/
  execute : Storage → Place → Path → Bytes → List Path → Except StorageFault Finished
  /-- What it does not let a command read or list. -/
  refusal : Refusal

/-- A system that starts no program and refuses nothing else. -/
def System.bare : System := ⟨fun _ _ _ _ _ => .error .denied, Refusal.nothing⟩

namespace Program

/-- The paths at which a program may lie. -/
def candidates (search : List Path) (program : Path) : List Path :=
  if Path.slash ∈ program then [program] else search.map fun directory => directory.extend program

/-- The content of the file at a path, where it may be run. -/
def contentAt (s : Storage) (here : Place) (p : Path) : Except StorageFault Bytes :=
  match s.find here p with
  | .ok (_, .file content true) => .ok content
  | .ok _ => .error .denied
  | .error fault => .error fault

/-- The first path at which there is a program, and its content. Where there is none, the fault is
that of the last path at which something else lies, or else the one given. -/
def locate (s : Storage) (here : Place) (fault : StorageFault) :
    List Path → Except StorageFault (Path × Bytes)
  | [] => .error fault
  | p :: rest =>
    match contentAt s here p with
    | .ok content => .ok (p, content)
    | .error .missing => locate s here fault rest
    | .error fault => locate s here fault rest

/-- Runs a program with arguments. -/
def run (system : System) (s : Storage) (here : Place) (search : List Path) (program : Path)
    (arguments : List Path) : Except StorageFault Finished :=
  (locate s here .missing (candidates search program)).bind fun (path, content) =>
    system.execute s here path content arguments

end Program

end ClassGraph
