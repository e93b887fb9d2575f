/-
ClassGraph.Proofs.Graph.Numbering — what the numbered view keeps of a graph.

The edges of a graph stand in the order of their sources and then of their
targets (`edges_pairwise`), so they are settled by the pairs of classes that
they join (`ends_edges_eq_iff`). The numbers that the map of a numbering gives
are those that a search of its list gives (`indexed_eq_ofEdges`), so the view
is grown edge by edge from its list alone; a class keeps the number that it
has been given, and at the end the numbers of every edge lead back to the
classes that it joins (`named_edges`). And the view looks at the classes
alone: edges that differ in nothing but their weights are numbered alike, and
no others are (`sameEnds_ofEdges_iff`).
-/
import Mathlib.Data.List.Basic
import ClassGraph.Graph.Indexed

namespace ClassGraph

/-- What an edge joins. -/
def ends {α : Type} (e : α × α × Weight) : α × α := (e.1, e.2.1)

/-! ## §1 Edges in order -/

namespace Graph

/-- A pair of classes comes before another: by the first, then by the second. -/
def EndsBefore : Name × Name → Name × Name → Prop := Prod.Lex (· < ·) (· < ·)

theorem EndsBefore.asymm {p q : Name × Name} (h : EndsBefore p q) : ¬ EndsBefore q p := by
  intro h'
  rcases Prod.lex_def.1 h with hlt | ⟨heq, hlt⟩
  · rcases Prod.lex_def.1 h' with hgt | ⟨heq', -⟩
    · exact StrictOrder.irrefl _ (StrictOrder.trans hlt hgt)
    · rw [heq'] at hlt
      exact StrictOrder.irrefl _ hlt
  · rcases Prod.lex_def.1 h' with hgt | ⟨-, hgt⟩
    · rw [heq] at hgt
      exact StrictOrder.irrefl _ hgt
    · exact StrictOrder.irrefl _ (StrictOrder.trans hlt hgt)

/-- Every edge comes before those that follow it. -/
theorem edges_pairwise (g : Graph) : (g.edges.map ends).Pairwise EndsBefore := by
  rw [List.pairwise_map, edges, List.pairwise_flatMap]
  constructor
  · intro binding _
    rw [List.pairwise_map]
    refine binding.2.inOrder.imp ?_
    intro target target' hlt
    exact Prod.Lex.right binding.1 hlt
  · refine g.rows.inOrder.imp ?_
    intro binding binding' hlt e he e' he'
    obtain ⟨_, -, rfl⟩ := List.mem_map.1 he
    obtain ⟨_, -, rfl⟩ := List.mem_map.1 he'
    exact Prod.Lex.left _ _ hlt

theorem nodup_ends_edges (g : Graph) : (g.edges.map ends).Nodup := by
  refine g.edges_pairwise.imp ?_
  intro p q h heq
  rw [heq] at h
  exact h.asymm h

theorem mem_ends_edges {g : Graph} {s t : Name} :
    (s, t) ∈ g.edges.map ends ↔ (g.weight? s t).isSome = true := by
  rw [List.mem_map, Option.isSome_iff_exists]
  constructor
  · intro h
    obtain ⟨⟨s', t', w⟩, hmem, he⟩ := h
    cases he
    exact ⟨w, mem_edges.1 hmem⟩
  · intro h
    obtain ⟨w, hw⟩ := h
    exact ⟨(s, t, w), mem_edges.2 hw, rfl⟩

/-- Two graphs list the same pairs where they have edges between the same classes. -/
theorem ends_edges_eq_iff {g g' : Graph} :
    g.edges.map ends = g'.edges.map ends ↔
      ∀ s t, (g.weight? s t).isSome = (g'.weight? s t).isSome := by
  constructor
  · intro h s t
    rw [Bool.eq_iff_iff, ← mem_ends_edges, h, mem_ends_edges]
  · intro h
    have hmem : ∀ p, p ∈ g.edges.map ends ↔ p ∈ g'.edges.map ends := by
      intro p
      rw [mem_ends_edges, h, ← mem_ends_edges]
    have hperm := (List.perm_ext_iff_of_nodup (nodup_ends_edges g) (nodup_ends_edges g')).2 hmem
    refine hperm.eq_of_pairwise ?_ g.edges_pairwise g'.edges_pairwise
    intro p q _ _ hpq hqp
    exact absurd hqp hpq.asymm

theorem weight?_eq_of_edges {g g' : Graph} (h : g.edges = g'.edges) (s t : Name) :
    g.weight? s t = g'.weight? s t := by
  apply Option.ext
  intro w
  rw [← mem_edges, h, mem_edges]

end Graph

namespace Indexed

variable {nodes : List Name} {n : Name} {edges edges' : List (Name × Name × Weight)}

/-! ## §2 Numbers that lead back -/

/-- The classes with `n` among them. -/
def withNode (nodes : List Name) (n : Name) : List Name :=
  if nodes.contains n then nodes else nodes ++ [n]

/-- The view with one more edge, whose classes are looked for among the nodes. -/
def addEdge (v : Indexed) (e : Name × Name × Weight) : Indexed :=
  let nodes := withNode (withNode v.nodes e.1) e.2.1
  ⟨nodes, v.edges ++ [(nodes.idxOf e.1, nodes.idxOf e.2.1, e.2.2)]⟩

def ofEdges (edges : List (Name × Name × Weight)) : Indexed := edges.foldl addEdge ⟨[], []⟩

theorem prefix_withNode (nodes : List Name) (n : Name) : nodes <+: withNode nodes n := by
  unfold withNode
  split
  · exact List.prefix_rfl
  · exact List.prefix_append _ _

theorem mem_withNode (nodes : List Name) (n : Name) : n ∈ withNode nodes n := by
  unfold withNode
  split
  · next h => exact List.contains_iff_mem.1 h
  · exact List.mem_append_right _ (List.mem_singleton.2 rfl)

/-- The classes that have numbers stay in front of those that get one later. -/
theorem prefix_foldl (edges : List (Name × Name × Weight)) (v : Indexed) :
    v.nodes <+: (edges.foldl addEdge v).nodes := by
  induction edges generalizing v with
  | nil => exact List.prefix_rfl
  | cons e edges ih =>
    have hstep : v.nodes <+: (addEdge v e).nodes :=
      (prefix_withNode v.nodes e.1).trans (prefix_withNode _ e.2.1)
    exact hstep.trans (ih (addEdge v e))

/-- A class keeps its number when others get theirs. -/
theorem getElem?_idxOf_of_prefix {later : List Name} (hn : n ∈ nodes) (hlater : nodes <+: later) :
    later[nodes.idxOf n]? = some n := by
  have hlt := List.idxOf_lt_length_of_mem hn
  rw [List.prefix_iff_getElem?.1 hlater _ hlt, List.getElem_idxOf]

/-- What the numbers of an edge lead to, with its weight. -/
def named (nodes : List Name) (e : Nat × Nat × Weight) : Option Name × Option Name × Weight :=
  (nodes[e.1]?, nodes[e.2.1]?, e.2.2)

/-- An edge of classes that are known. -/
def known (e : Name × Name × Weight) : Option Name × Option Name × Weight :=
  (some e.1, some e.2.1, e.2.2)

theorem named_edges_foldl (edges : List (Name × Name × Weight)) (v : Indexed) :
    (edges.foldl addEdge v).edges.map (named (edges.foldl addEdge v).nodes)
      = v.edges.map (named (edges.foldl addEdge v).nodes) ++ edges.map known := by
  induction edges generalizing v with
  | nil => simp
  | cons e edges ih =>
    have hlater := prefix_foldl edges (addEdge v e)
    have hsource : e.1 ∈ (addEdge v e).nodes :=
      (prefix_withNode _ e.2.1).subset (mem_withNode v.nodes e.1)
    have htarget : e.2.1 ∈ (addEdge v e).nodes := mem_withNode _ e.2.1
    have hedge : named (edges.foldl addEdge (addEdge v e)).nodes
        ((addEdge v e).nodes.idxOf e.1, (addEdge v e).nodes.idxOf e.2.1, e.2.2) = known e := by
      rw [named, getElem?_idxOf_of_prefix hsource hlater, getElem?_idxOf_of_prefix htarget hlater,
        known]
    have hedges : (addEdge v e).edges = v.edges
        ++ [((addEdge v e).nodes.idxOf e.1, (addEdge v e).nodes.idxOf e.2.1, e.2.2)] := rfl
    rw [List.foldl_cons, ih, hedges, List.map_append, List.map_singleton, hedge, List.map_cons,
      List.append_assoc, List.singleton_append]

/-- The numbers of the edges lead back to the edges. -/
theorem named_edges (edges : List (Name × Name × Weight)) :
    (ofEdges edges).edges.map (named (ofEdges edges).nodes) = edges.map known := by
  rw [ofEdges, named_edges_foldl]
  rfl

theorem known_injective {e e' : Name × Name × Weight} (h : known e = known e') : e = e' := by
  simpa [known, Prod.ext_iff] using h

/-- The view says which edges it was made from. -/
theorem ofEdges_injective (h : ofEdges edges = ofEdges edges') : edges = edges' := by
  have hknown : edges.map known = edges'.map known := by
    rw [← named_edges, h, named_edges]
  exact (List.map_inj_right fun _ _ => known_injective).1 hknown

end Indexed

/-! ## §3 Numbers from the map -/

namespace Numbering

variable {v : Numbering} {n : Name} {i : Nat}

/-- The map gives a class the number at which the list has it first. -/
theorem idxOf_eq_of_find? (h : v.numbers.find? n = some i) : v.nodes.idxOf n = i := by
  have hmem : n ∈ v.nodes := List.mem_of_getElem? ((v.inverse n i).1 h)
  have hback := Indexed.getElem?_idxOf_of_prefix hmem List.prefix_rfl
  have hfirst := (v.inverse n (v.nodes.idxOf n)).2 hback
  exact Option.some.inj (hfirst.symm.trans h)

theorem contains_nodes (v : Numbering) (n : Name) :
    v.nodes.contains n = (v.numbers.find? n).isSome := by
  rw [Bool.eq_iff_iff, List.contains_iff_mem, Option.isSome_iff_exists, List.mem_iff_getElem?]
  simp only [v.inverse]

theorem nodes_withNode (v : Numbering) (n : Name) :
    (v.withNode n).1.nodes = Indexed.withNode v.nodes n := by
  unfold withNode Indexed.withNode
  rw [contains_nodes]
  split
  · next i h => simp [h]
  · next h => simp [h]

/-- The number of a class is where the list has it. -/
theorem number_withNode (v : Numbering) (n : Name) :
    (v.withNode n).2 = (Indexed.withNode v.nodes n).idxOf n := by
  unfold withNode Indexed.withNode
  rw [contains_nodes]
  split
  · next i h => simp [h, idxOf_eq_of_find? h]
  · next h =>
    have hnot : n ∉ v.nodes := by
      rw [← List.contains_iff_mem, contains_nodes, h]
      simp
    simp [h, List.idxOf_append_of_notMem hnot]

/-- A numbering and numbered edges that hold the same as a view of the edges. -/
def Shows (v : Numbering × List (Nat × Nat × Weight)) (view : Indexed) : Prop :=
  v.1.nodes = view.nodes ∧ v.2 = view.edges

theorem Shows.withEdge {v : Numbering × List (Nat × Nat × Weight)} {view : Indexed}
    (h : Shows v view) (e : Name × Name × Weight) :
    Shows (Numbering.withEdge v e) (view.addEdge e) := by
  obtain ⟨hnodes, hedges⟩ := h
  have hfirst : (v.1.withNode e.1).1.nodes = Indexed.withNode view.nodes e.1 := by
    rw [nodes_withNode, hnodes]
  have hsecond : ((v.1.withNode e.1).1.withNode e.2.1).1.nodes
      = Indexed.withNode (Indexed.withNode view.nodes e.1) e.2.1 := by
    rw [nodes_withNode, hfirst]
  -- The source has its number before the target is looked for, and keeps it.
  have hsource : (Indexed.withNode (Indexed.withNode view.nodes e.1) e.2.1).idxOf e.1
      = (v.1.withNode e.1).2 := by
    obtain ⟨more, hmore⟩ := Indexed.prefix_withNode (Indexed.withNode view.nodes e.1) e.2.1
    rw [← hmore, List.idxOf_append_of_mem (Indexed.mem_withNode view.nodes e.1), number_withNode,
      hnodes]
  have htarget : (Indexed.withNode (Indexed.withNode view.nodes e.1) e.2.1).idxOf e.2.1
      = ((v.1.withNode e.1).1.withNode e.2.1).2 := by
    rw [number_withNode, hfirst]
  constructor
  · exact hsecond
  · simp only [Numbering.withEdge, Indexed.addEdge, hedges, hsource, htarget]

theorem Shows.foldl {v : Numbering × List (Nat × Nat × Weight)} {view : Indexed}
    (h : Shows v view) (edges : List (Name × Name × Weight)) :
    Shows (edges.foldl Numbering.withEdge v) (edges.foldl Indexed.addEdge view) := by
  induction edges generalizing v view with
  | nil => exact h
  | cons e edges ih => exact ih (h.withEdge e)

end Numbering

/-- The view that the map gives is the one that a search of the list gives. -/
theorem Graph.indexed_eq_ofEdges (g : Graph) : g.indexed = Indexed.ofEdges g.edges := by
  have hempty : Numbering.Shows (Numbering.empty, []) ⟨[], []⟩ := ⟨rfl, rfl⟩
  obtain ⟨hnodes, hedges⟩ := hempty.foldl g.edges
  exact congrArg₂ Indexed.mk hnodes hedges

namespace Indexed

variable {v v' : Indexed} {edges edges' : List (Name × Name × Weight)}

/-! ## §4 Numbers without weights -/

/-- Views that number the same classes and join the same numbers. -/
def SameEnds (v v' : Indexed) : Prop := v.nodes = v'.nodes ∧ v.edges.map ends = v'.edges.map ends

theorem SameEnds.addEdge (h : SameEnds v v') {e e' : Name × Name × Weight}
    (he : ends e = ends e') : SameEnds (addEdge v e) (addEdge v' e') := by
  obtain ⟨hnodes, hedges⟩ := h
  obtain ⟨hsource, htarget⟩ := Prod.mk.inj he
  constructor
  · simp only [Indexed.addEdge, hnodes, hsource, htarget]
  · simp only [Indexed.addEdge, List.map_append, List.map_singleton, hedges, hnodes, hsource,
      htarget, ends]

theorem SameEnds.foldl (h : SameEnds v v') (hedges : edges.map ends = edges'.map ends) :
    SameEnds (edges.foldl Indexed.addEdge v) (edges'.foldl Indexed.addEdge v') := by
  induction edges generalizing edges' v v' with
  | nil =>
    rw [List.map_nil, eq_comm, List.map_eq_nil_iff] at hedges
    rw [hedges]
    exact h
  | cons e edges ih =>
    cases edges' with
    | nil => cases hedges
    | cons e' edges' =>
      obtain ⟨he, hrest⟩ := List.cons_eq_cons.1 hedges
      rw [List.foldl_cons, List.foldl_cons]
      exact ih (h.addEdge he) hrest

/-- Edges between the same classes are numbered alike. -/
theorem sameEnds_ofEdges_iff :
    SameEnds (ofEdges edges) (ofEdges edges') ↔ edges.map ends = edges'.map ends := by
  constructor
  · intro h
    obtain ⟨hnodes, hedges⟩ := h
    have hback : ∀ edges : List (Name × Name × Weight),
        ((ofEdges edges).edges.map ends).map
          (fun p => ((ofEdges edges).nodes[p.1]?, (ofEdges edges).nodes[p.2]?))
        = (edges.map ends).map fun p => (some p.1, some p.2) := by
      intro edges
      have hnamed := congrArg (List.map fun e => (e.1, e.2.1)) (named_edges edges)
      simpa [List.map_map, Function.comp_def, named, known, ends] using hnamed
    have hpairs := hback edges
    rw [hnodes, hedges, hback edges'] at hpairs
    have hinj : ∀ p q : Name × Name, (some p.1, some p.2) = (some q.1, some q.2) → p = q := by
      intro p q h
      simpa [Prod.ext_iff] using h
    exact ((List.map_inj_right hinj).1 hpairs).symm
  · exact SameEnds.foldl ⟨rfl, rfl⟩

end Indexed

end ClassGraph
