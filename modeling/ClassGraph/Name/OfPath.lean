/-
ClassGraph.Name.OfPath — the class that a file holds, by where it lies.

Below the root, each directory is a package segment and the file's stem the
simple name. Main statement: `ofPath?_eq_ok` says when a path has a name and
which.
-/
import ClassGraph.Name.Basic
import ClassGraph.Path

namespace ClassGraph

/-- Why a path names no class. -/
inductive NamingError where
  /-- The path does not lie below the root. -/
  | outsideRoot (path root : Path)
  /-- The path below the root is not text. -/
  | notText (path : Path)
  /-- The file does not have the ending of class files. -/
  | notSource (path : Path)
  /-- Nothing but separators precedes the ending. -/
  | empty (path : Path)
  deriving DecidableEq, Repr

/-- The error as a sentence; paths stand in it as they were given. -/
def NamingError.message : NamingError → Text
  | .outsideRoot path root =>
    path.display ++ " is not located under ".toList ++ root.display
  | .notText path => path.display ++ " is not valid UTF-8".toList
  | .notSource path => path.display ++ " is not a smali file".toList
  | .empty path => path.display ++ " yields an empty class name".toList

namespace Name

/-- The name that a path without its ending spells: its non-empty segments between dots. -/
def ofStem (stem : Text) : Name :=
  join ['.'] ((cut '/' stem).filter fun s => !s.isEmpty)

/-- The name of the class whose file lies at `path` below `root`. -/
def ofPath? (root path : Path) : Except NamingError Name :=
  match Path.below? root path with
  | none => .error (.outsideRoot path root)
  | some rest =>
    match Utf8.decode rest with
    | .error _ => .error (.notText path)
    | .ok written =>
      match dropEnding? sourceEnding written with
      | none => .error (.notSource path)
      | some stem =>
        if (ofStem stem).isEmpty then .error (.empty path) else .ok (ofStem stem)

theorem ofPath?_eq_ok {root path : Path} {n : Name} :
    ofPath? root path = .ok n ↔
      ∃ rest stem, Path.below? root path = some rest ∧
        Utf8.decode rest = .ok (stem ++ sourceEnding) ∧ ofStem stem = n ∧ n ≠ [] := by
  unfold ofPath?
  constructor
  · intro h
    split at h
    · simp at h
    · next rest hrest =>
      split at h
      · simp at h
      · next written hwritten =>
        split at h
        · simp at h
        · next stem hstem =>
          rw [dropEnding?_eq_some] at hstem
          subst hstem
          split at h
          · simp at h
          · next hne =>
            cases h
            exact ⟨rest, stem, hrest, hwritten, rfl, by simpa using hne⟩
  · rintro ⟨rest, stem, hrest, hwritten, rfl, hne⟩
    have hstem : dropEnding? sourceEnding (stem ++ sourceEnding) = some stem :=
      dropEnding?_eq_some.2 rfl
    simp [hrest, hwritten, hstem, hne]

end Name

end ClassGraph
