/-
ClassGraph.Pattern.Basic — patterns over text, and the conditions that they
may set on a place.

A pattern stands for stretches of a text: one character out of a set, the
empty stretch under a condition on the characters around it, one stretch
after another, either of two, or a number of stretches in a row.
-/
import ClassGraph.Pattern.CharSet

namespace ClassGraph

/-- Where in a word a place must lie. -/
inductive WordPlace where
  /-- At either end of a word. -/
  | boundary
  /-- At no end of a word. -/
  | inside
  /-- Where a word begins. -/
  | start
  /-- Where a word ends. -/
  | finish
  /-- Not after a character of a word. -/
  | startHalf
  /-- Not before a character of a word. -/
  | finishHalf
  deriving DecidableEq, Repr

/-- A condition on the characters on both sides of a place. -/
inductive Look where
  /-- The text begins here. -/
  | textStart
  /-- The text ends here. -/
  | textEnd
  /-- A line begins here; lines end in a line feed, or also in a carriage return. -/
  | lineStart (returns : Bool)
  /-- A line ends here. -/
  | lineEnd (returns : Bool)
  /-- A word of ASCII characters, or of any, lies so. -/
  | word (ascii : Bool) (place : WordPlace)
  deriving DecidableEq, Repr

/-! ## §1 Conditions -/

/-- Whether a character is part of a word, of ASCII characters alone or of any. -/
def inWord (ascii : Bool) (c : Char) : Bool :=
  if ascii then c.isAlphanum || c == '_' else Unicode.isWord c

/-- Whether a place in or out of words, by the characters before and after it. -/
def WordPlace.holds (place : WordPlace) (before after : Bool) : Bool :=
  match place with
  | .boundary => before != after
  | .inside => before == after
  | .start => !before && after
  | .finish => before && !after
  | .startHalf => !before
  | .finishHalf => !after

/-- Whether a condition holds between two characters, absent at the ends of the text. -/
def Look.holds (condition : Look) (before after : Option Char) : Bool :=
  match condition with
  | .textStart => before.isNone
  | .textEnd => after.isNone
  | .lineStart false => before.isNone || before == some '\n'
  | .lineEnd false => after.isNone || after == some '\n'
  | .lineStart true =>
    before.isNone || before == some '\n' || (before == some '\r' && after != some '\n')
  | .lineEnd true =>
    after.isNone || after == some '\r' || (after == some '\n' && before != some '\r')
  | .word ascii place => place.holds (before.any (inWord ascii)) (after.any (inWord ascii))

/-! ## §2 Patterns -/

/-- A pattern. -/
inductive Pattern where
  /-- The empty stretch. -/
  | empty
  /-- One character of a set. -/
  | one (set : CharSet)
  /-- The empty stretch at a place that meets a condition. -/
  | look (condition : Look)
  /-- A stretch of the first, then one of the second. -/
  | cat (a b : Pattern)
  /-- A stretch of either. -/
  | alt (a b : Pattern)
  /-- At least `least` and at most `most` stretches in a row. -/
  | times (p : Pattern) (least : Nat) (most : Option Nat)
  deriving DecidableEq

namespace Pattern

/-- The patterns one after another. -/
def cats : List Pattern → Pattern
  | [] => empty
  | [p] => p
  | p :: rest => cat p (cats rest)

/-- Any of the patterns. -/
def alts : List Pattern → Pattern
  | [] => empty
  | [p] => p
  | p :: rest => alt p (alts rest)

end Pattern

end ClassGraph
