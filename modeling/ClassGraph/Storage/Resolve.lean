/-
ClassGraph.Storage.Resolve — from paths to places.

A path is followed segment by segment from the top, or from the directory
that relative paths start in. Idle segments stay where they are but, like
all others, demand a directory; a parent segment goes up; a link is replaced
by its target, up to a bound, and so that reading ends. The last segment may
be absent: then the path leads to a vacant place.
-/
import ClassGraph.Storage.Basic

namespace ClassGraph

/-- Why a path leads nowhere, or what it leads to cannot be used. -/
inductive StorageFault where
  | missing
  | notDirectory
  | isDirectory
  | tooManyLinks
  | nameTooLong
  /-- The path holds a zero byte. -/
  | zeroByte
  /-- Permission is denied. -/
  | denied
  | notProgram
  | noSpace
  deriving DecidableEq, Repr

/-- The fault as the system words it. -/
def StorageFault.message : StorageFault → Text
  | missing => "No such file or directory (os error 2)".toList
  | notProgram => "Exec format error (os error 8)".toList
  | denied => "Permission denied (os error 13)".toList
  | notDirectory => "Not a directory (os error 20)".toList
  | isDirectory => "Is a directory (os error 21)".toList
  | noSpace => "No space left on device (os error 28)".toList
  | nameTooLong => "File name too long (os error 36)".toList
  | tooManyLinks => "Too many levels of symbolic links (os error 40)".toList
  | zeroByte => "file name contained an unexpected NUL byte".toList

/-- What a path leads to. -/
inductive Found where
  /-- An entry at its place. -/
  | existing (place : Place) (entry : Entry)
  /-- No entry, in a directory that exists. -/
  | vacant (parent : Place) (name : Segment)
  deriving DecidableEq

namespace Storage

/-- The greatest number of links that a path may lead through. -/
def maxLinks : Nat := 40

def maxSegment : Nat := 255

def maxPath : Nat := 4095

/-- Where segments lead from a place. A link is replaced by its target, and `behind` says where that
leads with the segments behind it; a link as the last segment is followed only if `follow` holds. -/
def resolveWith (s : Storage) (follow : Bool)
    (behind : Place → List Segment → Except StorageFault Found) (place : Place)
    (segments : List Segment) : Except StorageFault Found :=
  match s.at? place, segments with
  | none, _ => .error .missing
  | some e, [] => .ok (.existing place e)
  | some .directory, name :: rest =>
    if Path.isIdle name then resolveWith s follow behind place rest
    else if name = Path.dotDot then resolveWith s follow behind place.dropLast rest
    else if maxSegment < name.length then .error .nameTooLong
    else
      match s.at? (place ++ [name]) with
      | none => if rest.isEmpty then .ok (.vacant place name) else .error .missing
      | some (.link target) =>
        if rest.isEmpty && !follow then .ok (.existing (place ++ [name]) (.link target))
        else behind (if Path.isAbsolute target then [] else place) (cut Path.slash target ++ rest)
      | some _ => resolveWith s follow behind (place ++ [name]) rest
  | some _, _ :: _ => .error .notDirectory

/-- Where segments lead from a place, through at most the given number of links. -/
def resolve (s : Storage) (follow : Bool) : Nat → Place → List Segment → Except StorageFault Found
  | 0 => resolveWith s follow fun _ _ => .error .tooManyLinks
  | links + 1 => resolveWith s follow (resolve s follow links)

/-- Where a path leads from the directory `here`. -/
def lookUp (s : Storage) (here : Place) (follow : Bool) (p : Path) : Except StorageFault Found :=
  if p.isEmpty then .error .missing
  else if 0 ∈ p then .error .zeroByte
  else if maxPath < p.length then .error .nameTooLong
  else s.resolve follow maxLinks (if Path.isAbsolute p then [] else here) (cut Path.slash p)

/-- The entry that a path leads to through all links. -/
def find (s : Storage) (here : Place) (p : Path) : Except StorageFault (Place × Entry) :=
  match s.lookUp here true p with
  | .ok (.existing place entry) => .ok (place, entry)
  | .ok (.vacant ..) => .error .missing
  | .error fault => .error fault

def exists? (s : Storage) (here : Place) (p : Path) : Bool := (s.find here p).toOption.isSome

def pathOf (place : Place) : Path := Path.slash :: join [Path.slash] place

/-- The path without links, idle and parent segments that leads to the same entry. -/
def canonical (s : Storage) (here : Place) (p : Path) : Except StorageFault Path :=
  (s.find here p).map fun found => pathOf found.1

/-- The content of the file that a path leads to. -/
def read (s : Storage) (here : Place) (p : Path) : Except StorageFault Bytes :=
  match s.find here p with
  | .ok (_, .file content _) => .ok content
  | .ok _ => .error .isDirectory
  | .error fault => .error fault

end Storage

/-- What is refused of a tree, and why: to read a file, or to list the entries of a directory. -/
abbrev Refusal := Place → Option Text

def Refusal.nothing : Refusal := fun _ => none

/-- The content of the file that a path leads to, for a reader to whom some are refused. -/
def Storage.readBut (s : Storage) (here : Place) (refusal : Refusal) (p : Path) :
    Except Text Bytes :=
  match s.find here p with
  | .ok (place, _) =>
    match refusal place with
    | some cause => .error cause
    | none => (s.read here p).mapError StorageFault.message
  | .error fault => .error fault.message

end ClassGraph
