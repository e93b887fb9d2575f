/-
ClassGraph.Pattern.Atom — the smallest parts of a written pattern, and what
they mean under the flags in force where they stand.

Without the flag `unicode` a pattern speaks of bytes, and since it is matched
against text, whatever could match a part of a character is refused.
-/
import ClassGraph.Pattern.Basic
import ClassGraph.Pattern.Named

namespace ClassGraph

/-- Why a text is no pattern. -/
inductive PatternError where
  /-- A group does not end. -/
  | unclosedGroup
  /-- A group ends that was not begun. -/
  | unopenedGroup
  /-- A group looks around, which patterns here cannot. -/
  | lookAround
  /-- The name of a group is malformed or taken. -/
  | badName
  /-- A list of flags is malformed. -/
  | badFlags
  /-- A repetition follows nothing that could be repeated. -/
  | nothingToRepeat
  /-- The bounds of a repetition are malformed. -/
  | badCount
  /-- An escape is malformed. -/
  | badEscape
  /-- A name in an escape is that of no set. -/
  | unknownSet
  /-- Brackets do not end. -/
  | unclosedBrackets
  /-- Something in brackets is neither a character nor a set, or a range runs backwards. -/
  | badMember
  /-- A part could match something that is not text. -/
  | notText
  /-- Constructs are nested too deeply. -/
  | tooDeep
  deriving DecidableEq, Repr

/-- The flags that say how parts of a pattern are read. -/
structure Flags where
  /-- Characters stand for those that differ in case only. -/
  ignoreCase : Bool
  /-- The marks of a beginning and an end are those of a line. -/
  multiLine : Bool
  /-- The dot stands for a line feed as well. -/
  dotAll : Bool
  /-- Carriage returns end lines as well. -/
  returns : Bool
  /-- Characters and classes are those of Unicode, not of ASCII. -/
  unicode : Bool
  /-- Blanks and comments are left out. -/
  spaced : Bool
  deriving DecidableEq, Repr

namespace Flags

/-- The flags that a pattern begins with. -/
def usual : Flags := ⟨false, false, false, false, true, false⟩

/-- The flags with one of them, named by its letter, turned on or off; none where no flag has that
letter. The letter `U` only exchanges greedy and reluctant repetition. -/
def set? (f : Flags) (letter : Char) (on : Bool) : Option Flags :=
  match letter with
  | 'i' => some { f with ignoreCase := on }
  | 'm' => some { f with multiLine := on }
  | 's' => some { f with dotAll := on }
  | 'R' => some { f with returns := on }
  | 'u' => some { f with unicode := on }
  | 'x' => some { f with spaced := on }
  | 'U' => some f
  | _ => none

/-- The set with what the flags make it blind to. -/
def blur (f : Flags) (s : CharSet) : CharSet :=
  if f.ignoreCase then if f.unicode then .folded s else .foldedAscii s else s

/-- The complement, which under the flags must be text. -/
def complement (f : Flags) (s : CharSet) : Except PatternError CharSet :=
  if f.unicode then .ok (.compl s) else .error .notText

/-- The set, blurred and then negated where asked for. -/
def finish (f : Flags) (negated : Bool) (s : CharSet) : Except PatternError CharSet :=
  if negated then f.complement (f.blur s) else .ok (f.blur s)

end Flags

/-- A class of characters with a letter of its own. -/
inductive LetterClass where
  | digit
  | blank
  | word
  deriving DecidableEq, Repr

/-- A mark that stands at a place rather than for characters. -/
inductive Anchor where
  | lineStart
  | lineEnd
  | textStart
  | textEnd
  | word (place : WordPlace)
  deriving DecidableEq, Repr

/-- One of the smallest parts of a pattern. -/
inductive Atom where
  /-- A character; `asByte` where it is written by the two digits of a byte. -/
  | literal (c : Char) (asByte : Bool)
  | dot
  | anchor (a : Anchor)
  | letter (k : LetterClass) (negated : Bool)
  | named (s : CharSet) (negated : Bool)
  deriving DecidableEq

/-- The characters of a lettered class. -/
def LetterClass.set (f : Flags) : LetterClass → CharSet
  | digit => if f.unicode then .digit else CharSet.asciiDigit
  | blank => if f.unicode then .blank else CharSet.asciiBlank
  | word => if f.unicode then .word else CharSet.asciiWord

/-- The condition that an anchor sets. -/
def Anchor.condition (f : Flags) : Anchor → Look
  | lineStart => if f.multiLine then .lineStart f.returns else .textStart
  | lineEnd => if f.multiLine then .lineEnd f.returns else .textEnd
  | textStart => .textStart
  | textEnd => .textEnd
  | word place => .word (!f.unicode) place

namespace Atom

/-- The set of the dot. -/
def dotSet (f : Flags) : CharSet :=
  if f.dotAll then .all
  else if f.returns then .compl (.union (.single '\r') (.single '\n'))
  else .compl (.single '\n')

/-- The characters of a lettered class or its complement. -/
def letterSet (f : Flags) (k : LetterClass) (negated : Bool) : Except PatternError CharSet :=
  if negated then f.complement (k.set f) else .ok (k.set f)

/-- The characters of a named set or its complement. -/
def namedSet (f : Flags) (s : CharSet) (negated : Bool) : Except PatternError CharSet :=
  if f.unicode then f.finish negated s else .error .notText

/-- The pattern that an atom is. -/
def pattern (f : Flags) : Atom → Except PatternError Pattern
  | literal c asByte =>
    if !f.unicode && asByte && 0x80 ≤ c.toNat then .error .notText
    else .ok (.one (f.blur (.single c)))
  | dot => if f.unicode then .ok (.one (dotSet f)) else .error .notText
  | anchor a => .ok (.look (a.condition f))
  | letter k negated => (letterSet f k negated).map .one
  | named s negated => (namedSet f s negated).map .one

/-- The character that an atom between brackets is. -/
def char? (f : Flags) : Atom → Option Char
  | literal c _ => if f.unicode || c.toNat < 0x80 then some c else none
  | _ => none

/-- The set that an atom between brackets is. -/
def member (f : Flags) : Atom → Except PatternError CharSet
  | literal c asByte =>
    match char? f (literal c asByte) with
    | some c => .ok (.single c)
    | none => .error .notText
  | letter k negated => letterSet f k negated
  | named s negated => namedSet f s negated
  | dot => .error .badMember
  | anchor _ => .error .badMember

end Atom

end ClassGraph
