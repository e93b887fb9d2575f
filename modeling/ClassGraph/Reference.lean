/-
ClassGraph.Reference — the type references in a line of disassembly.

A reference is written `L` body `;`. Where the body opens type arguments, a
`<` before another `L`, the name before the bracket is a reference of its
own and the text up to the matching `>` is read separately, one level
deeper; after the bracket, reading resumes on the outer level. Arguments
below the deepest level are not read, which is reported but changes nothing
about where reading resumes. A word that merely holds an `L` is skipped to
that letter. The main statements:

  * `closing_length` — the text of the arguments and what follows the
    bracket are shorter than what they were taken from, so reading ends;
  * `closing_eq_some` — together with the bracket they make up that text.
-/
import ClassGraph.SortedMap
import ClassGraph.Name.Basic

namespace ClassGraph.Reference

/-! ## §1 Bodies and brackets -/

/-- Whether a character may stand in the body of a reference. -/
def isBodyChar (c : Char) : Bool :=
  c.isAlphanum || c == '_' || c == '/' || c == '$' || c == '<' || c == '>'

def isBody (s : Text) : Bool := !s.isEmpty && s.all isBodyChar

/-- The name before type arguments, where the first bracket of the body opens some. -/
def argumentsOf? (body : Text) : Option Text :=
  match body.dropWhile (· != '<') with
  | '<' :: 'L' :: _ => some (body.takeWhile (· != '<'))
  | _ => none

/-- What precedes and what follows the bracket that closes the text, with `inner` brackets open
inside it. -/
def closing (inner : Nat) : Text → Option (Text × Text)
  | [] => none
  | c :: s =>
    if c = '<' then (closing (inner + 1) s).map fun (args, rest) => (c :: args, rest)
    else if c = '>' then
      match inner with
      | 0 => some ([], s)
      | inner + 1 => (closing inner s).map fun (args, rest) => (c :: args, rest)
    else (closing inner s).map fun (args, rest) => (c :: args, rest)

/-- The arguments, the closing bracket and the rest make up the text. -/
theorem closing_eq_some {inner : Nat} {s args rest : Text}
    (h : closing inner s = some (args, rest)) : s = args ++ '>' :: rest := by
  induction s generalizing inner args with
  | nil => simp [closing] at h
  | cons c s ih =>
    unfold closing at h
    split at h
    · obtain ⟨⟨args', rest'⟩, h', he⟩ := Option.map_eq_some_iff.1 h
      cases he
      rw [List.cons_append, ← ih h']
    · split at h
      · next hc =>
        split at h
        · cases h
          rw [List.nil_append, hc]
        · obtain ⟨⟨args', rest'⟩, h', he⟩ := Option.map_eq_some_iff.1 h
          cases he
          rw [List.cons_append, ← ih h']
      · obtain ⟨⟨args', rest'⟩, h', he⟩ := Option.map_eq_some_iff.1 h
        cases he
        rw [List.cons_append, ← ih h']

theorem closing_length {inner : Nat} {s args rest : Text}
    (h : closing inner s = some (args, rest)) :
    args.length < s.length ∧ rest.length < s.length := by
  rw [closing_eq_some h]
  simp only [List.length_append, List.length_cons]
  omega

/-! ## §2 Reading a line -/

/-- What reading comes upon. -/
inductive Sighting where
  /-- A reference, by its body up to its type arguments. -/
  | reference (body : Text)
  /-- Type arguments that lie too deep to be read, on the level `depth`. -/
  | tooDeep (depth : Nat)
  deriving DecidableEq, Repr

/-- The deepest level whose type arguments are read. -/
def maxDepth : Nat := 32

/-- Whether arguments found on the level `depth` are read under a bound; without one all are. -/
def isRead (bound : Option Nat) (depth : Nat) : Bool :=
  match bound with
  | none => true
  | some b => depth < b

theorem length_dropWhile_le (p : Char → Bool) (s : Text) : (s.dropWhile p).length ≤ s.length :=
  (List.dropWhile_sublist p).length_le

/-- What stands in the text, which lies `depth` levels deep, in the order of reading. -/
def scan (bound : Option Nat) (depth : Nat) (text : Text) : List Sighting :=
  match h : text.dropWhile (· != 'L') with
  | [] => []
  | _ :: tail =>
    have hTail : tail.length < text.length := by
      have := length_dropWhile_le (· != 'L') text
      rw [h, List.length_cons] at this
      omega
    if ';' ∈ tail then
      let body := tail.takeWhile (· != ';')
      if isBody body then
        match argumentsOf? body with
        | none =>
          have : (tail.dropWhile (· != ';')).length - 1 < text.length := by
            have := length_dropWhile_le (· != ';') tail
            omega
          .reference body :: scan bound depth ((tail.dropWhile (· != ';')).drop 1)
        | some name =>
          let inside := tail.drop (name.length + 1)
          have hInside : inside.length < text.length := by
            simp only [inside, List.length_drop]
            omega
          let found := if name.isEmpty then [] else [.reference name]
          match hc : closing 0 inside with
          | some (args, rest) =>
            have := closing_length hc
            found
              ++ (if isRead bound depth then scan bound (depth + 1) args else [.tooDeep depth])
              ++ scan bound depth rest
          | none =>
            found ++ if isRead bound depth then scan bound (depth + 1) inside else [.tooDeep depth]
      else scan bound depth tail
    else []
termination_by text.length

def sightings (line : Text) : List Sighting := scan (some maxDepth) 0 line

/-- The body of a sighted reference. -/
def Sighting.body? : Sighting → Option Text
  | .reference body => some body
  | .tooDeep _ => none

/-- The distinct references of a line, by their bodies. -/
def inLine (line : Text) : NameSet := NameSet.ofList ((sightings line).filterMap Sighting.body?)

/-- The distinct classes that a line refers to. -/
def classesInLine (line : Text) : NameSet :=
  NameSet.ofList ((inLine line).keys.map Name.ofDescriptor)

end ClassGraph.Reference
