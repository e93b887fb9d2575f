/-
ClassGraph.Pattern.CharSet — sets of characters, as patterns write them.

A set is kept as it was built, from ranges and from named properties, by
union, intersection, difference and complement, and asked for one character
at a time. A set made blind to case holds whatever differs in case only from
a member.
-/
import ClassGraph.Text.Blank
import ClassGraph.Unicode.Property
import ClassGraph.Unicode.Script
import ClassGraph.Unicode.Fold

namespace ClassGraph

/-- A set of characters. -/
inductive CharSet where
  /-- No character. -/
  | none
  /-- The characters from one to another. -/
  | range (first last : Char)
  /-- The characters that words are made of. -/
  | word
  /-- The decimal digits of all scripts. -/
  | digit
  /-- White space. -/
  | blank
  /-- The characters of some general categories. -/
  | categories (codes : List Text)
  /-- The characters with a property. -/
  | property (p : Unicode.Property)
  /-- The characters of a script. -/
  | script (code : Text)
  /-- The characters that a script uses. -/
  | used (code : Text)
  | union (a b : CharSet)
  | inter (a b : CharSet)
  | minus (a b : CharSet)
  /-- What exactly one of two sets holds. -/
  | either (a b : CharSet)
  | compl (a : CharSet)
  /-- What differs in case only from a member. -/
  | folded (a : CharSet)
  /-- What differs in the case of an ASCII letter only from a member. -/
  | foldedAscii (a : CharSet)
  deriving DecidableEq

namespace CharSet

/-- Whether a set holds a character. -/
def has : CharSet → Char → Bool
  | none, _ => false
  | range first last, c => first ≤ c && c ≤ last
  | word, c => Unicode.isWord c
  | digit, c => Unicode.isDecimalDigit c
  | blank, c => isBlank c
  | categories codes, c => codes.contains (Unicode.category c)
  | property p, c => p.holds c
  | script code, c => Unicode.script c == code
  | used code, c => Unicode.usesScript code c
  | union a b, c => a.has c || b.has c
  | inter a b, c => a.has c && b.has c
  | minus a b, c => a.has c && !b.has c
  | either a b, c => a.has c != b.has c
  | compl a, c => !a.has c
  | folded a, c => (Unicode.variants c).any a.has
  | foldedAscii a, c => (Unicode.asciiVariants c).any a.has

@[simp] theorem has_union (a b : CharSet) (c : Char) :
    (union a b).has c = (a.has c || b.has c) := rfl

@[simp] theorem has_compl (a : CharSet) (c : Char) : (compl a).has c = !a.has c := rfl

theorem has_range {first last c : Char} :
    (range first last).has c = true ↔ first ≤ c ∧ c ≤ last := by
  simp [has]

def single (c : Char) : CharSet := range c c

@[simp] theorem has_single {a c : Char} : (single a).has c = true ↔ c = a := by
  rw [single, has_range]
  constructor
  · rintro ⟨h, h'⟩
    exact Char.le_antisymm h' h
  · rintro rfl
    exact ⟨Char.le_refl c, Char.le_refl c⟩

def all : CharSet := range '\x00' (Char.ofNat 0x10FFFF)

/-- The union of a list of sets. -/
def unions : List CharSet → CharSet
  | [] => none
  | [a] => a
  | a :: rest => union a (unions rest)

/-- The union of the ranges between neighbouring characters of a text, taken in pairs. -/
def ranges : List (Char × Char) → CharSet
  | [] => none
  | (a, b) :: rest => union (range a b) (ranges rest)

end CharSet

end ClassGraph
