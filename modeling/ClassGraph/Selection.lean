/-
ClassGraph.Selection — which texts take part: paths and class names are
selected by patterns or by tests of any kind, such as for a fixed part.

A selecting pattern must match the whole of a text. It is read inside a
group between the marks of the text's beginning and end, so a pattern that
closes that group itself decides what the marks apply to. Where there is no
selection at all, every text passes.
-/
import ClassGraph.Pattern.Match
import ClassGraph.Pattern.Reader

namespace ClassGraph

/-- A selecting pattern that cannot be read. -/
structure InvalidPattern where
  /-- The pattern as it was given. -/
  written : Text
  cause : PatternError
  deriving DecidableEq, Repr

/-- The error as a sentence. -/
def InvalidPattern.message (e : InvalidPattern) : Text :=
  "Invalid filter pattern: ".toList ++ e.written

/-- The pattern of the texts that a given one matches as a whole. -/
def Pattern.readWhole (written : Text) : Except InvalidPattern Pattern :=
  match Pattern.read ("^(?:".toList ++ written ++ ")$".toList) with
  | .ok p => .ok p
  | .error cause => .error ⟨written, cause⟩

/-- What texts must be like to take part. -/
inductive Selection where
  /-- Every text takes part. -/
  | everything
  /-- Texts in which the pattern is found. -/
  | matching (p : Pattern)
  /-- Texts in which the pattern is not found. -/
  | lacking (p : Pattern)
  /-- Texts that two selections accept. -/
  | both (a b : Selection)
  /-- Texts that pass a test. -/
  | passing (test : Text → Bool)

namespace Selection

/-- Whether a selection accepts a text. -/
def accepts : Selection → Text → Bool
  | everything, _ => true
  | matching p, s => p.foundIn s
  | lacking p, s => !p.foundIn s
  | both a b, s => a.accepts s && b.accepts s
  | passing test, s => test s

def beginning (part : Text) : Selection := passing fun s => part.isPrefixOf s

def ending (part : Text) : Selection := passing fun s => part.isSuffixOf s

def holding (part : Text) : Selection := passing fun s => hasPart part s

def only (t : Text) : Selection := passing fun s => s == t

/-- The texts that all selections of a list accept. -/
def all : List Selection → Selection
  | [] => everything
  | a :: rest => both a (all rest)

/-- Whether a text passes where a selection may be absent. -/
def passes (selection : Option Selection) (s : Text) : Bool := selection.all fun a => a.accepts s

/-- The selection of what a pattern matches as a whole. -/
def ofPattern (written : Text) : Except InvalidPattern Selection :=
  (Pattern.readWhole written).map matching

/-- The selection of what a pattern does not match as a whole. -/
def ofExcluded (written : Text) : Except InvalidPattern Selection :=
  (Pattern.readWhole written).map lacking

end Selection

end ClassGraph
