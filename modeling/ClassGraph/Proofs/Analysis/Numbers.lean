/-
ClassGraph.Proofs.Analysis.Numbers — the numbers of a run.

Every outcome is of one of three kinds and raises the number of its kind, so
the numbers of a run are numbers of outcomes (`absorbAll_stats`). Those of the
counted files depend on their counts alone. Nothing in them depends on the
order of the outcomes, and neither does the graph: `absorbAll_perm`.
-/
import ClassGraph.Proofs.Analysis.Outcomes

namespace ClassGraph

namespace FileOutcome

def isExcluded : FileOutcome → Bool
  | .excluded _ => true
  | _ => false

def isFailed : FileOutcome → Bool
  | .failed => true
  | _ => false

/-- The number of lines of a counted file that are not text. -/
def failedLines : FileOutcome → Nat
  | .counted t => t.failedLines
  | _ => 0

end FileOutcome

/-- The numbers after some more outcomes. -/
def Stats.after (stats : Stats) (outcomes : List FileOutcome) : Stats :=
  { stats with
    processed := stats.processed + (Analysis.countsOf outcomes).length
    withoutReferences :=
      stats.withoutReferences + (Analysis.countsOf outcomes).countP fun file => file.2.isEmpty
    excludedByClass := stats.excludedByClass + outcomes.countP FileOutcome.isExcluded
    failed := stats.failed + outcomes.countP FileOutcome.isFailed
    failedLines := stats.failedLines + (outcomes.map FileOutcome.failedLines).sum }

namespace Analysis

/-! ## §1 Numbers of outcomes -/

theorem countsOf_cons (outcome : FileOutcome) (rest : List FileOutcome) :
    countsOf (outcome :: rest) = outcome.counts?.toList ++ countsOf rest := by
  simp only [countsOf, List.filterMap_cons]
  cases outcome.counts? <;> rfl

theorem absorb_stats (g : Graph) (stats : Stats) (outcome : FileOutcome) :
    (absorb g stats outcome).2 = stats.after [outcome] := by
  cases outcome with
  | excluded name => rfl
  | failed => rfl
  | counted t =>
    unfold absorb
    cases ht : t.counts.isEmpty <;>
      simp [Stats.after, countsOf, FileOutcome.counts?, FileOutcome.isExcluded,
        FileOutcome.isFailed, FileOutcome.failedLines, ht]

theorem after_cons (stats : Stats) (outcome : FileOutcome) (rest : List FileOutcome) :
    stats.after (outcome :: rest) = (stats.after [outcome]).after rest := by
  have hone : countsOf [outcome] = outcome.counts?.toList := by
    rw [countsOf_cons, countsOf, List.filterMap_nil, List.append_nil]
  simp only [Stats.after, countsOf_cons outcome rest, hone, List.length_append, List.countP_append,
    List.countP_cons, List.countP_nil, List.map_cons, List.map_nil, List.sum_cons, List.sum_nil,
    Stats.mk.injEq, true_and, and_true]
  omega

/-- The numbers of a run are numbers of outcomes. -/
theorem absorbAll_stats (stats : Stats) (outcomes : List FileOutcome) :
    (absorbAll stats outcomes).2 = stats.after outcomes := by
  unfold absorbAll
  generalize Graph.empty = g
  induction outcomes generalizing g stats with
  | nil => simp [Stats.after, countsOf]
  | cons outcome rest ih => rw [List.foldl_cons, ih, absorb_stats, ← after_cons]

/-- Every outcome is that of a counted, an excluded or a failed file. -/
theorem length_eq_of_kinds (outcomes : List FileOutcome) :
    (countsOf outcomes).length + outcomes.countP FileOutcome.isExcluded
      + outcomes.countP FileOutcome.isFailed = outcomes.length := by
  induction outcomes with
  | nil => rfl
  | cons outcome rest ih =>
    rw [countsOf_cons, List.length_append, List.countP_cons, List.countP_cons, List.length_cons,
      ← ih]
    cases outcome <;>
      simp only [FileOutcome.counts?, FileOutcome.isExcluded, FileOutcome.isFailed,
        Option.toList, List.length_cons, List.length_nil, if_true, if_false, Bool.false_eq_true] <;>
      omega

/-! ## §2 The order of outcomes -/

theorem after_perm {outcomes outcomes' : List FileOutcome} (h : outcomes.Perm outcomes')
    (stats : Stats) : stats.after outcomes = stats.after outcomes' := by
  have hcounts : (countsOf outcomes).Perm (countsOf outcomes') := h.filterMap _
  unfold Stats.after
  rw [hcounts.length_eq, hcounts.countP_eq, h.countP_eq, h.countP_eq, (h.map _).sum_nat]

/-- Outcomes in any order give the same graph and the same numbers. -/
theorem absorbAll_perm {outcomes outcomes' : List FileOutcome} (h : outcomes.Perm outcomes')
    (stats : Stats) : absorbAll stats outcomes = absorbAll stats outcomes' := by
  apply Prod.ext
  · rw [absorbAll_graph, absorbAll_graph]
    exact Graph.mergeAll_perm (h.filterMap _)
  · rw [absorbAll_stats, absorbAll_stats, after_perm h]

end Analysis

end ClassGraph
