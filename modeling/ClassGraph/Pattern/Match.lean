/-
ClassGraph.Pattern.Match — where in a text a pattern matches.

A set of places in a text, counted from zero before the first character, is
the number whose binary digits mark them. `ends` carries all places of a set
across a pattern at once, so matching takes no guesses: alternatives are
joined, and repetition goes on until the set of places settles.
-/
import ClassGraph.Pattern.Basic

namespace ClassGraph.Pattern

/-! ## §1 Places -/

/-- A set of places in a text. -/
abbrev Places := Nat

/-- The places before the characters of a set. -/
def placesOf (p : Char → Bool) : Text → Places
  | [] => 0
  | c :: s => (if p c then 1 else 0) + 2 * placesOf p s

/-- The places at which a condition holds, in a text that follows the character `before`. -/
def looking (condition : Look) (before : Option Char) : Text → Places
  | [] => if condition.holds before none then 1 else 0
  | c :: s =>
    (if condition.holds before (some c) then 1 else 0) + 2 * looking condition (some c) s

/-! ## §2 Carrying places across a pattern -/

/-- The `n`-th iterate of `f` at `m`, found early when it settles. -/
def settle (f : Places → Places) : Nat → Places → Places
  | 0, m => m
  | n + 1, m => if f m = m then m else settle f n (f m)

/-- The places to which some stretch of the pattern leads from the places of `m`. -/
def ends (s : Text) : Pattern → Places → Places
  | empty, m => m
  | one set, m => 2 * (m &&& placesOf set.has s)
  | look condition, m => m &&& looking condition none s
  | cat a b, m => ends s b (ends s a m)
  | alt a b, m => ends s a m ||| ends s b m
  | times p least most, m =>
    let reached := settle (ends s p) least m
    settle (fun m' => reached ||| ends s p m') (most.elim (s.length + 1) (· - least)) reached

def everywhere (s : Text) : Places := (1 <<< (s.length + 1)) - 1

/-- Whether some stretch of the text is one of the pattern. -/
def foundIn (p : Pattern) (s : Text) : Bool := ends s p (everywhere s) != 0

theorem settle_eq (f : Places → Places) (n : Nat) (m : Places) :
    settle f n m = Nat.repeat f n m := by
  induction n generalizing m with
  | zero => rfl
  | succ n ih =>
    have hshift : ∀ k x, Nat.repeat f k (f x) = f (Nat.repeat f k x) := by
      intro k
      induction k with
      | zero => intro x; rfl
      | succ k ihk => intro x; exact congrArg f (ihk x)
    unfold settle
    split
    · next h =>
      have hfix : ∀ k, Nat.repeat f k m = m := by
        intro k
        induction k with
        | zero => rfl
        | succ k ihk => exact (congrArg f ihk).trans h
      exact (hfix (n + 1)).symm
    · rw [ih, hshift]
      rfl

end ClassGraph.Pattern
