/-
ClassGraph.Graph.Basic — the weighted graph of which classes refer to which.

A graph binds each source class to a row, its targets with their weights.
Rows grow by `merge`, which folds in the counts of one file: a zero count and
a reference of a class to itself are dropped, and what is left is added to
the row of the source, so no row is ever stored empty. `collapse` leaves out
the nested classes. The main statements:

  * `mem_edges` — the edges are the bindings of the rows;
  * `find?_collapse` — what a collapsed graph binds a source to.
-/
import ClassGraph.SortedMap
import ClassGraph.Name.Basic
import ClassGraph.Weight

namespace ClassGraph

/-- Target classes with their weights. -/
abbrev Counts := NameMap Weight

/-- A weighted graph of classes. -/
structure Graph where
  rows : NameMap Counts
  deriving DecidableEq

namespace Graph

def empty : Graph := ⟨SortedMap.empty⟩

instance : Inhabited Graph := ⟨empty⟩

/-! ## §1 Growing -/

/-- The row with one more count for a target. -/
def addCount (row : Counts) (target : Name) (w : Weight) : Counts :=
  row.upsert target fun old => Weight.plus (old.getD 0) w

/-- The row with further counts added to it. -/
def addCounts (row counts : Counts) : Counts :=
  counts.toList.foldl (fun row (target, w) => addCount row target w) row

/-- The counts that make edges of `source`: positive ones, to other classes. -/
def edgesOf (source : Name) (counts : Counts) : Counts :=
  counts.filter fun target w => w != 0 && target != source

/-- The graph with the counts of one file of the class `source` folded in. -/
def merge (g : Graph) (source : Name) (counts : Counts) : Graph :=
  let kept := edgesOf source counts
  if kept.isEmpty then g
  else ⟨g.rows.upsert source fun row => addCounts (row.getD SortedMap.empty) kept⟩

/-! ## §2 Leaving nested classes out -/

/-- Whether a name holds a nesting separator anywhere. -/
def isNested (n : Name) : Bool := n.any Name.isNesting

/-- The row without nested targets, unless that leaves nothing. -/
def collapseRow (source : Name) (row : Counts) : Option Counts :=
  if isNested source then none
  else
    let kept := row.filter fun target _ => !isNested target
    if kept.isEmpty then none else some kept

/-- The graph without nested classes, neither as sources nor as targets. -/
def collapse (g : Graph) : Graph := ⟨g.rows.filterMap collapseRow⟩

def project (g : Graph) (collapsed : Bool) : Graph := if collapsed then g.collapse else g

/-! ## §3 Looking -/

def row? (g : Graph) (source : Name) : Option Counts := g.rows.find? source

/-- The weight of an edge, where there is one. -/
def weight? (g : Graph) (source target : Name) : Option Weight :=
  (g.row? source).bind fun row => row.find? target

def contains (g : Graph) (source : Name) : Bool := g.rows.contains source

def isEmpty (g : Graph) : Bool := g.rows.isEmpty

/-- The edges, by source and then by target. -/
def edges (g : Graph) : List (Name × Name × Weight) :=
  g.rows.toList.flatMap fun (source, row) => row.toList.map fun (target, w) => (source, target, w)

def vertexCount (g : Graph) : Nat := g.rows.size

/-- The number of edges. -/
def edgeCount (g : Graph) : Nat :=
  g.rows.values.foldl (fun n row => n + row.size) 0

/-- The weights of all edges together, as a number without bound. A sum kept in 64 bits is the same
for up to `2 ^ 32` edges, since no weight reaches `2 ^ 32`. -/
def totalWeight (g : Graph) : Nat := g.edges.foldl (fun n e => n + e.2.2.toNat) 0

theorem mem_edges {g : Graph} {s t : Name} {w : Weight} :
    (s, t, w) ∈ g.edges ↔ g.weight? s t = some w := by
  simp only [edges, List.mem_flatMap, List.mem_map, weight?, row?, Option.bind_eq_some_iff]
  constructor
  · rintro ⟨⟨source, row⟩, hrow, ⟨target, w'⟩, hbind, he⟩
    cases he
    exact ⟨row, SortedMap.find?_eq_some_iff.2 hrow, SortedMap.find?_eq_some_iff.2 hbind⟩
  · rintro ⟨row, hrow, hbind⟩
    exact ⟨(s, row), SortedMap.find?_eq_some_iff.1 hrow,
      (t, w), SortedMap.find?_eq_some_iff.1 hbind, rfl⟩

theorem find?_collapse (g : Graph) (s : Name) :
    g.collapse.row? s = (g.row? s).bind (collapseRow s) :=
  SortedMap.find?_filterMap collapseRow g.rows s

end Graph

end ClassGraph
