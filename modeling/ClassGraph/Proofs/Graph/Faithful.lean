/-
ClassGraph.Proofs.Graph.Faithful — the numbered view tells the whole graph.

The classes are numbered as the sorted edges come upon them: one more mention
leaves the numbers of the classes mentioned before as they are, and gives the
next number to a class that is mentioned for the first time
(`ByFirstMention.withNode`). The numbers of the edges lead back to the edges,
and a graph that merges have led to is had back by merging its edges, each of
them as the counts of one file (`ofEdges_edges`). So nothing is lost on the
way to the view and back: `faithful_indexed`.
-/
import Mathlib.Data.List.Basic
import ClassGraph.Proofs.Graph.Accumulation
import ClassGraph.Proofs.Graph.Numbering

namespace ClassGraph

/-! ## §1 Numbers by first mention -/

namespace Indexed

variable {nodes names : List Name} {v : Indexed}

/-- The classes that edges mention, the source of each before its target. -/
def mentioned (edges : List (Name × Name × Weight)) : List Name :=
  edges.flatMap fun e => [e.1, e.2.1]

/-- The classes among some names, each with one number, in the order in which the names first have
them. -/
structure ByFirstMention (nodes names : List Name) : Prop where
  /-- No class has two numbers. -/
  nodup : nodes.Nodup
  /-- The classes that have numbers are those among the names. -/
  mem_iff : ∀ n, n ∈ nodes ↔ n ∈ names
  /-- What comes first among the names has the lower number. -/
  lt_iff : ∀ a ∈ nodes, ∀ b ∈ nodes,
    nodes.idxOf a < nodes.idxOf b ↔ names.idxOf a < names.idxOf b

theorem ByFirstMention.nil : ByFirstMention [] [] :=
  ⟨List.nodup_nil, fun _ => Iff.rfl, fun _ ha => by cases ha⟩

/-- A mention of a class that has a number changes nothing. -/
theorem ByFirstMention.mention_again (h : ByFirstMention nodes names) {n : Name} (hn : n ∈ nodes) :
    ByFirstMention nodes (names ++ [n]) := by
  have hold : ∀ a ∈ nodes, (names ++ [n]).idxOf a = names.idxOf a := fun a ha =>
    List.idxOf_append_of_mem ((h.mem_iff a).1 ha)
  refine ⟨h.nodup, fun a => ?_, fun a ha b hb => ?_⟩
  · rw [List.mem_append, List.mem_singleton, h.mem_iff]
    have hnames := (h.mem_iff n).1 hn
    exact ⟨.inl, fun hor => hor.elim id fun he => he ▸ hnames⟩
  · rw [hold a ha, hold b hb]
    exact h.lt_iff a ha b hb

/-- The first mention of a class gives it the number after all others. -/
theorem ByFirstMention.mention_first (h : ByFirstMention nodes names) {n : Name} (hn : n ∉ nodes) :
    ByFirstMention (nodes ++ [n]) (names ++ [n]) := by
  have hnames : n ∉ names := fun hmem => hn ((h.mem_iff n).2 hmem)
  have hself : ∀ l : List Name, n ∉ l → (l ++ [n]).idxOf n = l.length := by
    intro l hl
    simp [List.idxOf_append_of_notMem hl]
  refine ⟨?_, fun a => ?_, fun a ha b hb => ?_⟩
  · refine List.nodup_append.2 ⟨h.nodup, by simp, fun a ha b hb => ?_⟩
    rw [List.mem_singleton.1 hb]
    exact fun he => hn (he ▸ ha)
  · rw [List.mem_append, List.mem_append, h.mem_iff]
  · -- the new class has the greatest index in both lists, and the others have kept theirs
    rcases List.mem_append.1 ha with ha | ha <;> rcases List.mem_append.1 hb with hb | hb
    · rw [List.idxOf_append_of_mem ha, List.idxOf_append_of_mem hb,
        List.idxOf_append_of_mem ((h.mem_iff a).1 ha), List.idxOf_append_of_mem ((h.mem_iff b).1 hb)]
      exact h.lt_iff a ha b hb
    · have hmem := (h.mem_iff a).1 ha
      rw [List.mem_singleton.1 hb, hself nodes hn, hself names hnames,
        List.idxOf_append_of_mem ha, List.idxOf_append_of_mem hmem]
      exact iff_of_true (List.idxOf_lt_length_of_mem ha) (List.idxOf_lt_length_of_mem hmem)
    · have hmem := (h.mem_iff b).1 hb
      rw [List.mem_singleton.1 ha, hself nodes hn, hself names hnames,
        List.idxOf_append_of_mem hb, List.idxOf_append_of_mem hmem]
      exact iff_of_false (Nat.lt_asymm (List.idxOf_lt_length_of_mem hb))
        (Nat.lt_asymm (List.idxOf_lt_length_of_mem hmem))
    · rw [List.mem_singleton.1 ha, List.mem_singleton.1 hb]
      exact iff_of_false (Nat.lt_irrefl _) (Nat.lt_irrefl _)

theorem ByFirstMention.withNode (h : ByFirstMention nodes names) (n : Name) :
    ByFirstMention (withNode nodes n) (names ++ [n]) := by
  unfold Indexed.withNode
  split
  · next hn => exact h.mention_again (List.contains_iff_mem.1 hn)
  · next hn => exact h.mention_first fun hmem => hn (List.contains_iff_mem.2 hmem)

theorem ByFirstMention.foldl (h : ByFirstMention v.nodes names)
    (edges : List (Name × Name × Weight)) :
    ByFirstMention (edges.foldl addEdge v).nodes (names ++ mentioned edges) := by
  induction edges generalizing v names with
  | nil => simpa [mentioned] using h
  | cons e edges ih =>
    have hstep : ByFirstMention (addEdge v e).nodes (names ++ [e.1] ++ [e.2.1]) :=
      (h.withNode e.1).withNode e.2.1
    have hrun := ih hstep
    rw [List.foldl_cons]
    simpa [mentioned] using hrun

/-- The classes of a view have the numbers that the mentions of its edges give them. -/
theorem byFirstMention_ofEdges (edges : List (Name × Name × Weight)) :
    ByFirstMention (ofEdges edges).nodes (mentioned edges) := by
  have hrun := ByFirstMention.foldl (v := ⟨[], []⟩) ByFirstMention.nil edges
  rwa [List.nil_append] at hrun

/-! ## §2 Edges had back from their numbers -/

/-- The edge of known classes that is stored by what its numbers lead to. -/
def between? (e : Option Name × Option Name × Weight) : Option (Name × Name × Weight) :=
  e.1.bind fun source => e.2.1.map fun target => (source, target, e.2.2)

/-- The edges that the numbers of a view lead back to. -/
def joined (v : Indexed) : List (Name × Name × Weight) :=
  (v.edges.map (named v.nodes)).filterMap between?

theorem joined_ofEdges (edges : List (Name × Name × Weight)) : (ofEdges edges).joined = edges := by
  have hknown : ∀ e, between? (known e) = some e := fun _ => rfl
  rw [joined, named_edges, List.filterMap_map]
  simp [hknown]

theorem length_edges_foldl (edges : List (Name × Name × Weight)) (v : Indexed) :
    (edges.foldl addEdge v).edges.length = v.edges.length + edges.length := by
  induction edges generalizing v with
  | nil => rfl
  | cons e edges ih =>
    rw [List.foldl_cons, ih, addEdge, List.length_append, List.length_singleton, List.length_cons]
    omega

end Indexed

/-! ## §3 Graphs had back from their edges -/

namespace Graph

variable {edges : List (Name × Name × Weight)} {g : Graph} {s t : Name} {w : Weight}

/-- An edge as the counts of one file. -/
def fileOf (e : Name × Name × Weight) : Name × Counts :=
  (e.1, SortedMap.empty.insert e.2.1 e.2.2)

/-- The graph of some edges. -/
def ofEdges (edges : List (Name × Name × Weight)) : Graph := empty.mergeAll (edges.map fileOf)

theorem added_fileOf (e : Name × Name × Weight) (s t : Name) :
    added (fileOf e).1 (fileOf e).2 s t = if ends e = (s, t) ∧ s ≠ t then e.2.2.toNat else 0 := by
  obtain ⟨source, target, w⟩ := e
  by_cases ht : t = target
  · subst ht
    simp [added, fileOf, ends, SortedMap.insert, eq_comm]
  · have hne : ¬ target = t := fun he => ht he.symm
    simp [added, fileOf, ends, SortedMap.insert, SortedMap.find?_upsert_of_ne _ ht, hne]

theorem total_fileOf_cons (e : Name × Name × Weight) (edges : List (Name × Name × Weight))
    (s t : Name) :
    total ((e :: edges).map fileOf) s t
      = (if ends e = (s, t) ∧ s ≠ t then e.2.2.toNat else 0) + total (edges.map fileOf) s t := by
  rw [← added_fileOf, total, total, List.map_cons, List.map_cons, List.sum_cons]

theorem total_eq_zero_of_not_mem (h : (s, t) ∉ edges.map ends) :
    total (edges.map fileOf) s t = 0 := by
  induction edges with
  | nil => rfl
  | cons e edges ih =>
    rw [List.map_cons, List.mem_cons, not_or] at h
    rw [total_fileOf_cons, ih h.2, if_neg fun he => h.1 he.1.symm]

/-- Where no two edges join the same classes, an edge adds its weight and no other does. -/
theorem total_of_mem (hnodup : (edges.map ends).Nodup) (hmem : (s, t, w) ∈ edges) (hst : s ≠ t) :
    total (edges.map fileOf) s t = w.toNat := by
  induction edges with
  | nil => cases hmem
  | cons e edges ih =>
    obtain ⟨hnot, hrest⟩ := List.nodup_cons.1 hnodup
    rw [total_fileOf_cons]
    rcases List.mem_cons.1 hmem with rfl | hmem
    · rw [total_eq_zero_of_not_mem hnot, if_pos ⟨rfl, hst⟩, Nat.add_zero]
    · have hother : ends e ≠ (s, t) := fun he =>
        hnot (he ▸ List.mem_map_of_mem (f := ends) hmem)
      rw [if_neg fun he => hother he.1, ih hrest hmem, Nat.zero_add]

theorem ofTotal_toNat (h : 1 ≤ w.toNat) : Weight.ofTotal w.toNat = some w := by
  have hlt := w.toNat_lt
  rw [Weight.ofTotal, if_neg (by omega), Option.some.injEq, ← UInt32.toNat_inj,
    Weight.toNat_ofNat_min]
  simp only [UInt32.size]
  omega

/-- No edge that merges lead to joins a class to itself or weighs nothing. -/
theorem edge_of_mergeAll {files : List (Name × Counts)}
    (h : (empty.mergeAll files).weight? s t = some w) : s ≠ t ∧ 1 ≤ w.toNat := by
  rw [weight?_mergeAll] at h
  have hne : total files s t ≠ 0 := by
    intro hzero
    rw [hzero] at h
    cases h
  exact ⟨(total_ne_zero_iff.1 hne).1, (Weight.bounds_of_ofTotal h).1⟩

/-- Merging the edges of a graph gives the graph back. -/
theorem ofEdges_edges (files : List (Name × Counts)) :
    ofEdges (empty.mergeAll files).edges = empty.mergeAll files := by
  refine Compact.eq_of_weight? (compact_mergeAll compact_empty _)
    (compact_mergeAll compact_empty files) fun s t => ?_
  rw [ofEdges, weight?_mergeAll]
  cases hw : (empty.mergeAll files).weight? s t with
  | none =>
    have hnot : (s, t) ∉ (empty.mergeAll files).edges.map ends := by
      rw [mem_ends_edges, hw]
      exact Bool.false_ne_true
    rw [total_eq_zero_of_not_mem hnot]
    rfl
  | some w =>
    obtain ⟨hst, hpos⟩ := edge_of_mergeAll hw
    rw [total_of_mem (nodup_ends_edges _) (mem_edges.2 hw) hst, ofTotal_toNat hpos]

theorem edgeCount_eq_length (g : Graph) : g.edgeCount = g.edges.length := by
  have hfold : ∀ (rows : List (Name × Counts)) (n : Nat),
      (rows.map (·.2)).foldl (fun n row => n + row.size) n
        = n + (rows.flatMap fun binding =>
            binding.2.toList.map fun edge => (binding.1, edge.1, edge.2)).length := by
    intro rows
    induction rows with
    | nil => exact fun _ => rfl
    | cons binding rows ih =>
      intro n
      rw [List.map_cons, List.foldl_cons, ih, List.flatMap_cons, List.length_append,
        List.length_map, SortedMap.size, Nat.add_assoc]
  have hall := hfold g.rows.toList 0
  rw [Nat.zero_add] at hall
  exact hall

/-! ## §4 The view -/

/-- What a numbered view says of a graph. -/
structure Faithful (g : Graph) (v : Indexed) : Prop where
  /-- No two numbers stand for one class. -/
  distinct : v.nodes.Nodup
  /-- The numbered classes are those that edges come from or lead to. -/
  nodes : ∀ n, n ∈ v.nodes ↔ ∃ s t w, g.weight? s t = some w ∧ (n = s ∨ n = t)
  /-- Of two classes, the one that the edges mention first has the lower number. -/
  inOrder : ∀ a ∈ v.nodes, ∀ b ∈ v.nodes, v.nodes.idxOf a < v.nodes.idxOf b ↔
    (Indexed.mentioned g.edges).idxOf a < (Indexed.mentioned g.edges).idxOf b
  /-- The numbers of the edges lead to the classes that the edges of the graph join, one by one and
  with their weights. -/
  edges : v.edges.map (Indexed.named v.nodes) = g.edges.map Indexed.known
  /-- There are as many of them as the graph has. -/
  count : v.edges.length = g.edgeCount
  /-- The edges of the graph are those with a weight, -/
  stored : ∀ s t w, (s, t, w) ∈ g.edges ↔ g.weight? s t = some w
  /-- and they stand in the order of their sources, and of their targets where those are the
  same. -/
  sorted : (g.edges.map ends).Pairwise EndsBefore
  /-- The graph is had back from the view. -/
  rebuilt : ofEdges v.joined = g

theorem mem_mentioned_edges {n : Name} : n ∈ Indexed.mentioned g.edges ↔
    ∃ s t w, g.weight? s t = some w ∧ (n = s ∨ n = t) := by
  simp only [Indexed.mentioned, List.mem_flatMap, Prod.exists, mem_edges, List.mem_cons,
    List.not_mem_nil, or_false]

/-- **The numbered view tells the whole graph**, for every graph that merges have led to. -/
theorem faithful_indexed (files : List (Name × Counts)) :
    Faithful (empty.mergeAll files) (empty.mergeAll files).indexed := by
  have hmention := Indexed.byFirstMention_ofEdges (empty.mergeAll files).edges
  rw [indexed_eq_ofEdges]
  constructor
  case distinct => exact hmention.nodup
  case nodes => exact fun n => (hmention.mem_iff n).trans mem_mentioned_edges
  case inOrder => exact hmention.lt_iff
  case edges => exact Indexed.named_edges _
  case count =>
    rw [Indexed.ofEdges, Indexed.length_edges_foldl, edgeCount_eq_length]
    exact Nat.zero_add _
  case stored => exact fun s t w => mem_edges
  case sorted => exact edges_pairwise _
  case rebuilt => rw [Indexed.joined_ofEdges, ofEdges_edges]

end Graph

end ClassGraph
