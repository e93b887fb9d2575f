/-
ClassGraph.Proofs.Graph.Collapse — leaving nested classes out, once or often.

A collapsed graph holds the edges of the graph between classes that are not
nested, and nothing else (`weight?_collapse_eq_some`). A graph may be collapsed while
it still grows: whole classes go and later merges bring them back, so two
runs with and without such collapses hold different graphs on the way. But a
merge adds to a weight whatever else the graph holds, so both keep the same
edges between classes that are not nested (`AgreesUnnested`), and the last
collapse makes them equal: `collapse_build`.
-/
import ClassGraph.Proofs.Graph.Accumulation

namespace ClassGraph.Graph

variable {g g' : Graph} {s t : Name}

/-! ## §1 What a collapsed graph holds -/

theorem isNested_eq_false {n : Name} : isNested n = false ↔ '$' ∉ n := by
  simp only [isNested, Name.isNesting, List.any_eq_false, beq_iff_eq]
  constructor
  · intro h hm
    exact h '$' hm rfl
  · rintro h c hc rfl
    exact h hc

/-- The targets that are not nested, of a source that is not. -/
theorem collapseRow_eq_some {row kept : Counts} :
    collapseRow s row = some kept ↔ isNested s = false ∧
      kept = row.filter (fun target _ => !isNested target) ∧ ¬ kept.isEmpty = true := by
  unfold collapseRow
  simp only
  constructor
  · intro h
    split at h
    · cases h
    · next hs =>
      split at h
      · cases h
      · next hsome =>
        cases h
        exact ⟨by simpa using hs, rfl, hsome⟩
  · rintro ⟨hs, rfl, hsome⟩
    rw [if_neg (by simp [hs]), if_neg hsome]

theorem weight?_collapse_eq_some {w : Weight} :
    g.collapse.weight? s t = some w ↔
      g.weight? s t = some w ∧ isNested s = false ∧ isNested t = false := by
  simp only [weight?, find?_collapse, Option.bind_eq_some_iff]
  constructor
  · rintro ⟨kept, ⟨row, hrow, hkept⟩, hw⟩
    obtain ⟨hs, rfl, -⟩ := collapseRow_eq_some.1 hkept
    rw [SortedMap.find?_filter] at hw
    obtain ⟨hfind, ht⟩ := Option.filter_eq_some_iff.1 hw
    exact ⟨⟨row, hrow, hfind⟩, hs, by simpa using ht⟩
  · rintro ⟨⟨row, hrow, hw⟩, hs, ht⟩
    have hfind : (row.filter fun target _ => !isNested target).find? t = some w := by
      rw [SortedMap.find?_filter, hw]
      simp [ht]
    refine ⟨_, ⟨row, hrow, collapseRow_eq_some.2 ⟨hs, rfl, fun hempty => ?_⟩⟩, hfind⟩
    rw [SortedMap.isEmpty_iff.1 hempty t] at hfind
    cases hfind

theorem compact_collapse (g : Graph) : g.collapse.Compact := by
  intro s kept hkept
  rw [find?_collapse] at hkept
  obtain ⟨row, -, hrow⟩ := Option.bind_eq_some_iff.1 hkept
  exact SortedMap.exists_find?_of_not_isEmpty (collapseRow_eq_some.1 hrow).2.2

/-! ## §2 Graphs that agree where no class is nested -/

/-- The edges between classes that are not nested are the same. -/
def AgreesUnnested (g g' : Graph) : Prop :=
  ∀ s t, isNested s = false → isNested t = false → g.weight? s t = g'.weight? s t

theorem agreesUnnested_collapse (g : Graph) : g.collapse.AgreesUnnested g := by
  intro s t hs ht
  apply Option.ext
  intro w
  rw [weight?_collapse_eq_some]
  exact and_iff_left ⟨hs, ht⟩

theorem AgreesUnnested.merge (h : g.AgreesUnnested g') (source : Name) (counts : Counts) :
    (g.merge source counts).AgreesUnnested (g'.merge source counts) := by
  intro s t hs ht
  have hst := h s t hs ht
  by_cases hsource : s = source
  · subst hsource
    rw [weight?_merge_self, weight?_merge_self, hst]
  · rw [weight?_merge_of_ne g hsource, weight?_merge_of_ne g' hsource, hst]

/-- What such graphs still differ in is gone once they are collapsed. -/
theorem AgreesUnnested.collapse_eq (h : g.AgreesUnnested g') : g.collapse = g'.collapse := by
  apply Compact.eq_of_weight? (compact_collapse g) (compact_collapse g')
  intro s t
  apply Option.ext
  intro w
  rw [weight?_collapse_eq_some, weight?_collapse_eq_some]
  exact and_congr_left fun ⟨hs, ht⟩ => by rw [h s t hs ht]

/-! ## §3 Graphs that are collapsed while they grow -/

/-- What may happen to a graph that grows. -/
inductive Step where
  /-- The counts of a file are folded in. -/
  | merge (source : Name) (counts : Counts)
  /-- Nested classes are left out. -/
  | collapse

/-- The graph after a step. -/
def apply (g : Graph) : Step → Graph
  | .merge source counts => g.merge source counts
  | .collapse => g.project true

/-- The graph after some steps. -/
def build (g : Graph) (steps : List Step) : Graph := steps.foldl apply g

/-- The counts that a step folds in. -/
def Step.merged? : Step → Option (Name × Counts)
  | .merge source counts => some (source, counts)
  | .collapse => none

/-- The counts that the steps fold in, with every collapse left out. -/
def merged (steps : List Step) : List (Name × Counts) := steps.filterMap Step.merged?

/-- With and without the collapses on the way, the steps lead to graphs that agree where no class
is nested. -/
theorem AgreesUnnested.build (h : g.AgreesUnnested g') (steps : List Step) :
    (g.build steps).AgreesUnnested (g'.mergeAll (merged steps)) := by
  induction steps generalizing g g' with
  | nil => exact h
  | cons step steps ih =>
    cases step with
    | merge source counts => exact ih (h.merge source counts)
    | collapse =>
      have hstep : (g.apply .collapse).AgreesUnnested g' := by
        intro s t hs ht
        exact (agreesUnnested_collapse g s t hs ht).trans (h s t hs ht)
      exact ih hstep

/-- **Collapses on the way make no difference to the last one**: a graph that is built by merges
and collapses in any order is, once collapsed, the collapsed graph of the merges alone. A collapsed
graph holds the edges between classes without a nesting separator, with their weights, and no class
without an edge; to collapse it again changes nothing. -/
theorem collapse_build (steps : List Step) (g : Graph) :
    (empty.build steps).project true = (empty.mergeAll (merged steps)).project true ∧
      (∀ s t w, (g.project true).weight? s t = some w ↔
        g.weight? s t = some w ∧ '$' ∉ s ∧ '$' ∉ t) ∧
      (∀ s, (g.project true).contains s = true → ∃ t w, (g.project true).weight? s t = some w) ∧
      (g.project true).project true = g.project true ∧
      g.project false = g := by
  have hbuild : (empty.build steps).AgreesUnnested (empty.mergeAll (merged steps)) :=
    AgreesUnnested.build (fun _ _ _ _ => rfl) steps
  refine ⟨hbuild.collapse_eq, ?_, ?_, (agreesUnnested_collapse g).collapse_eq, rfl⟩
  · intro s t w
    rw [← isNested_eq_false, ← isNested_eq_false]
    exact weight?_collapse_eq_some
  · intro s hs
    exact exists_weight?_of_contains (compact_collapse g) hs

end ClassGraph.Graph
