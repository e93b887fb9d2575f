/-
ClassGraph.Main — the command line.

What a command line speaks of is read into a tree of files, the command is
carried out on that tree, and what it has changed there is done to the files
themselves. A file that cannot be read and a directory that cannot be listed
stand in the tree as well, empty, and are refused to the command. Whether a
file may be run cannot be seen from here, so every file counts as runnable;
but no program is started.
-/
import ClassGraph.Command.Run
import ClassGraph.Storage.Change

namespace ClassGraph.Files

/-- The string of a path. -/
def string (p : Path) : String := String.ofList p.display

def path (s : String) : Path := Path.ofText s.toList

/-- The place of a path without links. -/
def place (p : Path) : Place := (cut Path.slash p).filter fun s => !s.isEmpty

def above (p : Path) : Path := beforeLast (· == Path.slash) p

/-- A tree as far as it has been loaded, and what of it could not be read, with the causes. -/
structure Loaded where
  storage : Storage
  refused : List (Place × Text)

namespace Loaded

def empty : Loaded := ⟨Storage.empty, []⟩

/-- How an error of the system is reported. -/
def causeOf : IO.Error → Text
  | .permissionDenied _ code details =>
    (details ++ " (os error " ++ toString code ++ ")").toList
  | e => e.toString.toList

def refuse (l : Loaded) (p : Path) (e : IO.Error) : Loaded :=
  { l with refused := (place p, causeOf e) :: l.refused }

/-- With a file in the directories above it. -/
def addFile (l : Loaded) (p : Path) (content : Bytes) : Loaded :=
  match (l.storage.makeDirectories [] (above p)).write [] p content with
  | .ok s => { l with storage := s.makeRunnable [] p }
  | .error _ => l

/-- The tree with what lies at a path, and below it; the path goes through no links. -/
partial def load (l : Loaded) (p : Path) : IO Loaded := do
  let file := (← IO.FS.realPath (string (above p ++ [Path.slash])))
    / string (afterLast (· == Path.slash) p)
  match (← file.symlinkMetadata).type with
  | .dir =>
    let l := { l with storage := l.storage.makeDirectories [] p }
    try
      let entries ← file.readDir
      entries.foldlM (fun l e => do
        try load l (p.extend (path e.fileName)) catch _ => return l) l
    catch e => return l.refuse p e
  | .symlink =>
    return { l with storage := l.storage.link [] p (path (← IO.FS.realPath file).toString) }
  | .file =>
    try
      let content ← IO.FS.readBinFile file
      return l.addFile p content.toList
    catch e => return (l.addFile p []).refuse p e
  | .other => return l

/-- The tree with what a path leads to, and with the links on the way there. -/
def loadPath (here : Path) (l : Loaded) (p : Path) : IO Loaded := do
  let p := here.extend p
  let mut s := l.storage
  for segments in Storage.beginnings (cut Path.slash p) do
    let q := join [Path.slash] segments
    try
      let real := path (← IO.FS.realPath (string q)).toString
      s := s.makeDirectories [] (above real)
      if let .ok (.vacant parent name) := s.lookUp [] false q then
        if Storage.pathOf (parent ++ [name]) != real then s := s.link [] q real
      if (← (← IO.FS.realPath (string q)).metadata).type == .dir then
        s := s.makeDirectories [] real
    catch _ => pure ()
  let l := { l with storage := s }
  try load l (path (← IO.FS.realPath (string p)).toString) catch _ => return l

end Loaded

/-- Does to the files what has changed between two trees. -/
def store (old new : Storage) : IO Unit := do
  for (place, entry) in old.entries.toList.reverse do
    if new.at? place == none then
      let name := string (Storage.pathOf place)
      if entry == .directory then IO.FS.removeDir name else IO.FS.removeFile name
  for (place, entry) in new.entries.toList do
    if old.at? place != some entry then
      match entry with
      | .file content _ =>
        IO.FS.writeBinFile (string (Storage.pathOf place)) (ByteArray.mk content.toArray)
      | .directory => IO.FS.createDir (string (Storage.pathOf place))
      | .link _ => pure ()

end ClassGraph.Files

open ClassGraph in
/-- Carries out what the words of the command line ask for. -/
def main (words : List String) : IO UInt32 := do
  match Request.read? (words.map String.toList) with
  | none =>
    IO.eprintln "usage: classgraph [--verbose] analyze ROOT | decode ARCHIVE TARGET"
    return usageStatus.toUInt32
  | some request =>
    let here := Files.path (← IO.currentDir).toString
    let search := (cut ':' ((← IO.getEnv "PATH").getD "").toList).map Path.ofText
    let loaded ← (request.paths search).foldlM (Files.Loaded.loadPath here) Files.Loaded.empty
    let w : Surroundings := ⟨loaded.storage, Files.place here, search, true⟩
    let system := { System.bare with refusal := fun place => loaded.refused.lookup place }
    let o := w.perform request system
    Files.store loaded.storage o.storage
    for e in o.events do
      if request.isVerbose || e.level != .debug then IO.eprintln (String.ofList e.line)
    IO.print (String.ofList o.output)
    IO.eprint (String.ofList o.errors)
    return o.status.toUInt32
