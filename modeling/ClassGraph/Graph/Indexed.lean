/-
ClassGraph.Graph.Indexed — the graph with its classes numbered.

The classes are numbered in the order in which the sorted edges mention
them, the source of an edge before its target. A numbering holds the classes
by number, and the numbers by class in a map that is the exact inverse of
that list: a class that has a number is found, and any other gets the next
one (`inverse_insert`). Each edge becomes a pair of numbers with its weight.
-/
import ClassGraph.Graph.Basic

namespace ClassGraph

/-- Numbered classes and the edges between their numbers. -/
structure Indexed where
  /-- The classes by number. -/
  nodes : List Name
  /-- The edges: the number of the source, the number of the target, the weight. -/
  edges : List (Nat × Nat × Weight)
  deriving DecidableEq

/-- Classes and their numbers. -/
structure Numbering where
  /-- The classes by number. -/
  nodes : List Name
  /-- The numbers by class. -/
  numbers : SortedMap Name Nat
  inverse : ∀ n i, numbers.find? n = some i ↔ nodes[i]? = some n

namespace Numbering

def empty : Numbering := ⟨[], SortedMap.empty, fun _ _ => by simp⟩

/-- Where a class has no number, giving it the next one keeps the map the inverse of the list. -/
theorem inverse_insert (v : Numbering) {n : Name} (h : v.numbers.find? n = none) (m : Name)
    (i : Nat) : (v.numbers.insert n v.nodes.length).find? m = some i ↔
      (v.nodes ++ [n])[i]? = some m := by
  unfold SortedMap.insert
  by_cases hlt : i < v.nodes.length
  · rw [List.getElem?_append_left hlt, ← v.inverse m i]
    by_cases hm : m = n
    · subst hm
      rw [SortedMap.find?_upsert_self, h]
      constructor
      · intro hi
        rw [Option.some.inj hi] at hlt
        exact absurd hlt (Nat.lt_irrefl i)
      · intro hi
        cases hi
    · rw [SortedMap.find?_upsert_of_ne _ hm]
  · -- No number beyond the last is taken, so only the new class can have this one.
    have hold : v.nodes[i]? = none := List.getElem?_eq_none (Nat.le_of_not_lt hlt)
    by_cases hm : m = n
    · subst hm
      rw [SortedMap.find?_upsert_self, List.getElem?_append_right (Nat.le_of_not_lt hlt)]
      constructor
      · intro hi
        rw [← Option.some.inj hi, Nat.sub_self]
        rfl
      · intro hi
        have hzero : i - v.nodes.length < 1 := (List.getElem?_eq_some_iff.1 hi).1
        rw [show i = v.nodes.length by omega]
    · rw [SortedMap.find?_upsert_of_ne _ hm, v.inverse m i, hold,
        List.getElem?_append_right (Nat.le_of_not_lt hlt)]
      constructor
      · intro hi
        cases hi
      · intro hi
        have hmem : m ∈ [n] := List.mem_of_getElem? hi
        exact absurd (List.mem_singleton.1 hmem) hm

/-- The numbering with a class in it, and the number of that class. -/
def withNode (v : Numbering) (n : Name) : Numbering × Nat :=
  match h : v.numbers.find? n with
  | some i => (v, i)
  | none =>
    (⟨v.nodes ++ [n], v.numbers.insert n v.nodes.length, v.inverse_insert h⟩, v.nodes.length)

/-- A numbering and numbered edges with one more edge. -/
def withEdge (v : Numbering × List (Nat × Nat × Weight)) (e : Name × Name × Weight) :
    Numbering × List (Nat × Nat × Weight) :=
  let (numbering, source) := v.1.withNode e.1
  let (numbering, target) := numbering.withNode e.2.1
  (numbering, v.2 ++ [(source, target, e.2.2)])

end Numbering

def Graph.indexed (g : Graph) : Indexed :=
  let (numbering, edges) := g.edges.foldl Numbering.withEdge (Numbering.empty, [])
  ⟨numbering.nodes, edges⟩

end ClassGraph
