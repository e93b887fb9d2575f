/-
ClassGraph.Name.Basic — class names and what their spelling says.

A class name is a text of segments between dots, `a.b.Outer$Inner`; the
simple name is its last segment. A dollar sign in the simple name separates
an enclosing class from a nested one, and a nested segment of digits alone
marks a class without a name of its own. The main statements:

  * `simple_suffix` — the simple name ends the name;
  * `isAnonymous_nearestNamed` — folding ends at a class with a name;
  * `qualifier_append_simple` — a name is its package and its simple name.
-/
import ClassGraph.Text.Basic

namespace ClassGraph

/-- A dotted class name. -/
abbrev Name := Text

namespace Name

def isBreak (c : Char) : Bool := c == '.' || c == '/'

def isNesting (c : Char) : Bool := c == '$'

/-- The last segment of a dotted or slashed name. -/
def simple (n : Name) : Name := afterLast isBreak n

/-- Whether the simple name holds a nesting separator. -/
def isInner (n : Name) : Bool := (simple n).any isNesting

/-- Whether the simple name ends in a nested segment of ASCII digits alone, with something before
its separator. -/
def isAnonymous (n : Name) : Bool :=
  let s := simple n
  let head := beforeLast isNesting s
  let tail := afterLast isNesting s
  isInner n && !head.isEmpty && !tail.isEmpty && tail.all Char.isDigit

/-- The name up to the separator of its innermost nested segment. -/
def enclosing (n : Name) : Name := beforeLast isNesting n

theorem simple_suffix (n : Name) : simple n <:+ n := by
  unfold simple afterLast
  rw [← List.reverse_prefix]
  simpa using List.takeWhile_prefix _

theorem length_enclosing_lt {n : Name} (h : isInner n = true) : (enclosing n).length < n.length :=
  length_beforeLast_lt <| by
    obtain ⟨c, hc, hp⟩ := List.any_eq_true.1 h
    exact List.any_eq_true.2 ⟨c, (simple_suffix n).subset hc, hp⟩

theorem isInner_of_isAnonymous {n : Name} (h : isAnonymous n = true) : isInner n = true := by
  simp only [isAnonymous, Bool.and_eq_true] at h
  exact h.1.1.1

/-- The class whose own name the code of `n` is filed under: an anonymous class belongs to the
class around it. -/
def nearestNamed (n : Name) : Name :=
  if h : isAnonymous n = true then
    have := length_enclosing_lt (isInner_of_isAnonymous h)
    nearestNamed (enclosing n)
  else n
termination_by n.length

/-- The package and its dot: what precedes the simple name. -/
def qualifier (n : Name) : Text := n.take (n.length - (simple n).length)

/-- The outermost enclosing class, in its package. -/
def outer (n : Name) : Name := qualifier n ++ (simple n).takeWhile (fun c => !isNesting c)

/-- The class that the body of a descriptor names, type arguments left out. -/
def ofDescriptor (body : Text) : Name :=
  (body.takeWhile (· != '<')).map fun c => if c = '/' then '.' else c

/-- The ending of the files that classes are disassembled into. -/
def sourceEnding : Text := ['.', 's', 'm', 'a', 'l', 'i']

/-- Whether a file name is that of a disassembled class: the ending, and something before it. -/
def isSourceFile (fileName : Text) : Bool :=
  sourceEnding.length < fileName.length && sourceEnding.isSuffixOf fileName

/-- Folding ends at a class that is not anonymous. -/
theorem isAnonymous_nearestNamed (n : Name) : isAnonymous (nearestNamed n) = false := by
  fun_induction nearestNamed n with
  | case1 n h _ ih => exact ih
  | case2 n h => simpa using h

theorem qualifier_append_simple (n : Name) : qualifier n ++ simple n = n := by
  have h := List.suffix_iff_eq_drop.1 (simple_suffix n)
  calc qualifier n ++ simple n
      = n.take (n.length - (simple n).length) ++ n.drop (n.length - (simple n).length) := by
        rw [← h]; rfl
    _ = n := List.take_append_drop _ _

end Name

end ClassGraph
