/-
ClassGraph.Pattern.Bracket — sets of characters between brackets.

Open brackets collect members; an operator closes the members so far into
its left operand, and operators associate to the left. Each part carries its
height, how deep constructs are nested in it.
-/
import ClassGraph.Pattern.Atom

namespace ClassGraph

/-- An operator between sets. -/
inductive SetOp where
  | inter
  | minus
  | either
  deriving DecidableEq, Repr

/-- The set that an operator makes of two. -/
def SetOp.apply : SetOp → CharSet → CharSet → CharSet
  | inter, a, b => .inter a b
  | minus, a, b => .minus a b
  | either, a, b => .either a b

/-- The operator that is written by a doubled character. -/
def SetOp.ofDoubled? (c : Char) : Option SetOp :=
  match c with
  | '&' => some .inter
  | '-' => some .minus
  | '~' => some .either
  | _ => none

/-- A part of a set between brackets. -/
structure SetPart where
  set : CharSet
  height : Nat
  deriving DecidableEq

/-- The greatest of some heights. -/
def tallest (heights : List Nat) : Nat := heights.foldl max 0

/-- Open brackets. -/
structure Bracket where
  negated : Bool
  /-- What stands before the latest operator, with that operator. -/
  left? : Option (SetOp × SetPart)
  /-- The members since, last first. -/
  members : List SetPart
  deriving DecidableEq

namespace Bracket

def start : Bracket := ⟨false, none, []⟩

def add (b : Bracket) (part : SetPart) : Bracket := { b with members := part :: b.members }

/-- The union of the members since the latest operator. -/
def operand (b : Bracket) : SetPart :=
  match b.members with
  | [] => ⟨.none, 0⟩
  | [part] => part
  | parts => ⟨CharSet.unions (parts.reverse.map (·.set)), tallest (parts.map (·.height)) + 1⟩

/-- What stands between the brackets so far. -/
def content (f : Flags) (b : Bracket) : SetPart :=
  let right := b.operand
  match b.left? with
  | none => right
  | some (op, left) =>
    ⟨op.apply (f.blur left.set) (f.blur right.set), max left.height right.height + 1⟩

/-- The brackets after an operator. -/
def operate (f : Flags) (b : Bracket) (op : SetOp) : Bracket :=
  { b with left? := some (op, b.content f), members := [] }

/-- The set that the brackets stand for once they are closed. -/
def close (f : Flags) (b : Bracket) : Except PatternError SetPart :=
  let inner := b.content f
  (f.finish b.negated inner.set).map fun s => ⟨s, inner.height + 1⟩

end Bracket

/-- The ASCII class that stands in brackets after their opening one, whether it is negated, and how
many characters it takes. -/
def asciiAhead? (rest : Text) : Option (CharSet × Bool × Nat) :=
  match rest with
  | ':' :: rest =>
    let negated := rest.head? == some '^'
    let rest := if negated then rest.drop 1 else rest
    let name := rest.takeWhile (· != ':')
    if [':', ']'].isPrefixOf (rest.drop name.length) then
      (CharSet.ascii? name).map fun s => (s, negated, name.length + (if negated then 4 else 3))
    else none
  | _ => none

/-- What decides whether a hyphen before `rest` makes a range: the next character, under `spaced`
past blanks and the sign of a comment. -/
def afterHyphen (f : Flags) (rest : Text) : Option Char :=
  if f.spaced then
    match rest.dropWhile isBlank with
    | [] => rest.head?
    | '#' :: more => (more.dropWhile isBlank).head? <|> rest.head?
    | c :: _ => some c
  else rest.head?

end ClassGraph
