/-
ClassGraph.Proofs.Analysis.Shown — which edges of a run are shown.

Nesting is asked about twice. A file belongs to a nested class where its
simple name holds the separator (`Name.isInner`), and then it has an edge to
the class around it; the shown graph leaves out what holds the separator
anywhere (`Graph.isNested`). The two answers are the same for a class whose
package does not hold it (`Graph.isNested_eq_false_iff`). A class in a package
that does is no nested class and is left out all the same, so what is shown
of a run, `shown_of_run`, has to speak of packages.
-/
import ClassGraph.Proofs.Analysis.Origins
import ClassGraph.Proofs.Analysis.Weights
import ClassGraph.Proofs.Graph.Collapse

namespace ClassGraph

/-! ## §1 Names with a separator -/

theorem Name.isInner_eq_false_iff {n : Name} : n.isInner = false ↔ '$' ∉ n.simple :=
  Graph.isNested_eq_false

/-- A name is free of separators where the class is not nested and its package is free of them. -/
theorem Graph.isNested_eq_false_iff {n : Name} :
    isNested n = false ↔ n.isInner = false ∧ '$' ∉ n.qualifier := by
  have hparts : '$' ∈ n ↔ '$' ∈ n.qualifier ∨ '$' ∈ n.simple := by
    rw [← List.mem_append, Name.qualifier_append_simple]
  rw [isNested_eq_false, Name.isInner_eq_false_iff, hparts, not_or, and_comm]

/-! ## §2 Runs -/

namespace Analysis

variable {st : Storage} {here : Place} {options : Options} {source : Source}
  {schedule : Nat → List Nat} {stopped : Bool} {root : Path} {closed : Closed} {a : Analysis}

theorem shown_eq_project
    (hrun : (run st here options source schedule stopped root closed).result = .ok a) :
    a.shown = a.raw.project (!options.keepsNested) := by
  rw [shown, (run_eq_ok hrun).2.1]

/-- **What is shown of a run without nested classes**: an edge is shown, with its weight, where
neither end is nested and neither package holds a nesting separator; nothing else is shown. -/
theorem shown_of_run
    (hrun : (run st here options source schedule stopped root closed).result = .ok a)
    (hnested : options.keepsNested = false) :
    (∀ s t w, a.raw.weight? s t = some w →
      (a.shown.weight? s t = some w ↔
        (s.isInner = false ∧ t.isInner = false) ∧ '$' ∉ s.qualifier ∧ '$' ∉ t.qualifier)) ∧
    ∀ s t w, a.shown.weight? s t = some w → a.raw.weight? s t = some w := by
  have hshown : a.shown = a.raw.collapse := by
    rw [shown_eq_project hrun, hnested]
    rfl
  constructor
  · intro s t w hw
    rw [hshown, Graph.weight?_collapse_eq_some, Graph.isNested_eq_false_iff,
      Graph.isNested_eq_false_iff]
    simp only [hw, true_and]
    exact and_and_and_comm
  · intro s t w hw
    rw [hshown] at hw
    exact (Graph.weight?_collapse_eq_some.1 hw).1

/-- A directory with the class `C`, and another of that name in a package with a separator. Both
mention `D` once. -/
def packageTree : Storage :=
  ((treeOf ['C']).put [[0x61]] [0x70, 0x24] .directory).put [[0x61], [0x70, 0x24]]
    (Path.ofText (['C'] ++ Name.sourceEnding)) (.file [0x4C, 0x44, 0x3B] false)

/-- Everything but nested classes is shown. -/
def unnested : Options := { everything with keepsNested := false }

theorem packageTree_run : ∃ a, (runOver packageTree unnested).result = .ok a ∧
    a.raw.weight? ['C'] ['D'] = some 1 ∧ a.raw.weight? ['p', '$', '.', 'C'] ['D'] = some 1 := by
  have hall : ((runOver packageTree unnested).result.toOption.map fun a =>
      (a.raw.weight? ['C'] ['D'], a.raw.weight? ['p', '$', '.', 'C'] ['D']))
      = some (some 1, some 1) := by
    decide +kernel
  obtain ⟨a, ha, hweights⟩ := Option.map_eq_some_iff.1 hall
  obtain ⟨hplain, hpackage⟩ := Prod.mk.inj hweights
  exact ⟨a, eq_ok_of_toOption ha, hplain, hpackage⟩

/-- A class that is not nested is hidden where its package holds a separator. -/
theorem unnested_class_hidden : ¬ ∀ a, (runOver packageTree unnested).result = .ok a →
    ∀ s t w, a.raw.weight? s t = some w →
      (a.shown.weight? s t = some w ↔ s.isInner = false ∧ t.isInner = false) := by
  intro hclaim
  obtain ⟨a, ha, -, hpackage⟩ := packageTree_run
  have hinner : Name.isInner ['p', '$', '.', 'C'] = false ∧ Name.isInner ['D'] = false := by decide
  have hvisible := (hclaim a ha _ _ _ hpackage).2 hinner
  have hcollapsed : a.shown = a.raw.collapse := by
    rw [shown_eq_project ha]
    rfl
  rw [hcollapsed, Graph.weight?_collapse_eq_some] at hvisible
  exact absurd hvisible.2.1 (by decide)

theorem shown_packageTree : ∃ a, (runOver packageTree unnested).result = .ok a ∧
    a.shown.weight? ['C'] ['D'] = some 1 ∧
    ¬ a.shown.weight? ['p', '$', '.', 'C'] ['D'] = some 1 := by
  obtain ⟨a, ha, hplain, hpackage⟩ := packageTree_run
  obtain ⟨hedges, -⟩ := shown_of_run ha rfl
  refine ⟨a, ha, (hedges _ _ _ hplain).2 (by decide), fun hvisible => ?_⟩
  exact absurd ((hedges _ _ _ hpackage).1 hvisible).2.1 (by decide)

end Analysis

end ClassGraph
