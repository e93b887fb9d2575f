/-
ClassGraph.Proofs.Graph.Accumulation — what a graph holds after any number
of merges.

A weight is the sum of all counts that were merged for its edge, or the
greatest weight where the sum exceeds that; there is no edge where the sum is
zero. One merge is described by what it does to a weight (`weight?_merge`),
and a run of merges by induction (`weight?_mergeAll`). Along the way no row
is left empty (`Compact`), so the weights say all that a graph holds, and the
order of the merges does not matter (`mergeAll_perm`). All of it, in terms of
the counts alone, is `mergeAll_closed_form`.
-/
import Mathlib.Algebra.GroupWithZero.Nat
import ClassGraph.Graph.Basic

namespace ClassGraph

/-! ## §1 Weights and their totals -/

namespace Weight

/-- The weight of an edge whose counts add up to `n`, where there is one. -/
def ofTotal (n : Nat) : Option Weight :=
  if n = 0 then none else some (UInt32.ofNat (min n (UInt32.size - 1)))

theorem toNat_ofNat_min (n : Nat) :
    (UInt32.ofNat (min n (UInt32.size - 1))).toNat = min n (UInt32.size - 1) := by
  rw [UInt32.toNat_ofNat_of_lt']
  simp only [UInt32.size]
  omega

theorem toNat_getD_ofTotal (n : Nat) :
    ((ofTotal n).getD 0).toNat = min n (UInt32.size - 1) := by
  unfold ofTotal
  split
  · next h => simp [h]
  · next h => rw [Option.getD_some, toNat_ofNat_min]

theorem map_toNat_ofTotal (n : Nat) :
    (ofTotal n).map UInt32.toNat = if n = 0 then none else some (min n (UInt32.size - 1)) := by
  unfold ofTotal
  split
  · rfl
  · rw [Option.map_some, toNat_ofNat_min]

theorem ofTotal_eq_none {n : Nat} : ofTotal n = none ↔ n = 0 := by
  unfold ofTotal
  split
  · next h => simp [h]
  · next h => simp [h]

theorem bounds_of_ofTotal {n : Nat} {w : Weight} (h : ofTotal n = some w) :
    1 ≤ w.toNat ∧ w.toNat ≤ UInt32.size - 1 := by
  unfold ofTotal at h
  split at h
  · cases h
  · next hn =>
    obtain rfl := Option.some.inj h
    rw [toNat_ofNat_min]
    simp only [UInt32.size]
    omega

/-- A positive count raises a total. -/
theorem plus_ofTotal (n : Nat) {w : Weight} (hw : w ≠ 0) :
    some (plus ((ofTotal n).getD 0) w) = ofTotal (n + w.toNat) := by
  have hpos : w.toNat ≠ 0 := fun h => hw (UInt32.toNat_inj.1 (by simpa using h))
  have hsum : ofTotal (n + w.toNat)
      = some (UInt32.ofNat (min (n + w.toNat) (UInt32.size - 1))) := if_neg (by omega)
  rw [hsum]
  congr 1
  apply UInt32.toNat_inj.1
  rw [toNat_plus, toNat_getD_ofTotal, toNat_ofNat_min]
  omega

end Weight

namespace Graph

/-! ## §2 One merge -/

theorem find?_edgesOf (source t : Name) (counts : Counts) :
    (edgesOf source counts).find? t
      = (counts.find? t).filter fun w => w != 0 && t != source :=
  SortedMap.find?_filter _ counts t

theorem find?_foldl_addCount {l : List (Name × Weight)} (hl : InOrder l) (row : Counts) (t : Name) :
    (l.foldl (fun row (target, w) => addCount row target w) row).find? t =
      match SortedMap.lookup t l with
      | some w => some (Weight.plus ((row.find? t).getD 0) w)
      | none => row.find? t := by
  induction l generalizing row with
  | nil => rfl
  | cons p rest ih =>
    obtain ⟨target, w⟩ := p
    obtain ⟨hk, hr⟩ := List.pairwise_cons.1 hl
    rw [List.foldl_cons, ih hr]
    by_cases ht : t = target
    · subst ht
      have hnone : SortedMap.lookup t rest = none := SortedMap.lookup_eq_none_of_lt hk
      simp [hnone, SortedMap.lookup, addCount]
    · simp [SortedMap.lookup, ht, addCount, SortedMap.find?_upsert_of_ne _ ht]

theorem find?_addCounts (row counts : Counts) (t : Name) :
    (addCounts row counts).find? t =
      match counts.find? t with
      | some w => some (Weight.plus ((row.find? t).getD 0) w)
      | none => row.find? t :=
  find?_foldl_addCount counts.inOrder row t

/-- A merge into the row of its own source. -/
theorem weight?_merge_self (g : Graph) (s t : Name) (counts : Counts) :
    (g.merge s counts).weight? s t =
      match (edgesOf s counts).find? t with
      | some w => some (Weight.plus ((g.weight? s t).getD 0) w)
      | none => g.weight? s t := by
  unfold merge
  simp only
  split
  · next h => rw [SortedMap.isEmpty_iff.1 h t]
  · next h =>
    simp only [weight?, row?, SortedMap.find?_upsert_self, Option.bind_some, find?_addCounts]
    cases g.rows.find? s with
    | none => rfl
    | some row => rfl

theorem row?_merge_of_ne (g : Graph) {s s' : Name} (h : s' ≠ s) (counts : Counts) :
    (g.merge s counts).row? s' = g.row? s' := by
  unfold merge
  simp only
  split
  · rfl
  · exact SortedMap.find?_upsert_of_ne _ h _

theorem weight?_merge_of_ne (g : Graph) {s s' : Name} (h : s' ≠ s) (counts : Counts) (t : Name) :
    (g.merge s counts).weight? s' t = g.weight? s' t := by
  rw [weight?, weight?, row?_merge_of_ne g h]

/-- What the counts of one file of the class `source` add to the edge from `s` to `t`. -/
def added (source : Name) (counts : Counts) (s t : Name) : Nat :=
  if source = s ∧ t ≠ s then ((counts.find? t).getD 0).toNat else 0

/-- A merge adds its counts to the totals. -/
theorem weight?_merge {g : Graph} {s t : Name} {n : Nat} (h : g.weight? s t = Weight.ofTotal n)
    (source : Name) (counts : Counts) :
    (g.merge source counts).weight? s t = Weight.ofTotal (n + added source counts s t) := by
  by_cases hs : s = source
  · subst hs
    rw [weight?_merge_self, find?_edgesOf, h]
    by_cases ht : t = s
    · cases counts.find? t <;> simp [added, ht, Option.filter_some]
    · cases hc : counts.find? t with
      | none => simp [added, hc]
      | some w =>
        by_cases hw : w = 0
        · simp [added, hc, hw, Option.filter_some]
        · simp [added, hc, hw, ht, Option.filter_some, Weight.plus_ofTotal n hw]
  · have hne : source ≠ s := fun e => hs e.symm
    rw [weight?_merge_of_ne g hs, h, added, if_neg fun e => hne e.1, Nat.add_zero]

/-! ## §3 Many merges -/

/-- The graph of the counts of many files, merged in order. -/
def mergeAll (g : Graph) (files : List (Name × Counts)) : Graph :=
  files.foldl (fun g (source, counts) => g.merge source counts) g

/-- What the counts of many files add to an edge. -/
def total (files : List (Name × Counts)) (s t : Name) : Nat :=
  (files.map fun (source, counts) => added source counts s t).sum

theorem weight?_mergeAll_of {g : Graph} {s t : Name} {n : Nat}
    (h : g.weight? s t = Weight.ofTotal n) (files : List (Name × Counts)) :
    (g.mergeAll files).weight? s t = Weight.ofTotal (n + total files s t) := by
  induction files generalizing g n with
  | nil => simpa [mergeAll, total] using h
  | cons file files ih =>
    obtain ⟨source, counts⟩ := file
    have hstep := ih (weight?_merge h source counts)
    rw [mergeAll, List.foldl_cons]
    rw [mergeAll] at hstep
    rw [hstep, total, total, List.map_cons, List.sum_cons, Nat.add_assoc]

/-- The weights of a graph are the totals of what was merged into it. -/
theorem weight?_mergeAll (files : List (Name × Counts)) (s t : Name) :
    (empty.mergeAll files).weight? s t = Weight.ofTotal (total files s t) := by
  have hempty : empty.weight? s t = Weight.ofTotal 0 := rfl
  rw [weight?_mergeAll_of hempty, Nat.zero_add]

/-! ## §4 No empty rows -/

/-- Every class that is bound has an edge. -/
def Compact (g : Graph) : Prop := ∀ s row, g.row? s = some row → ∃ t w, row.find? t = some w

theorem compact_empty : empty.Compact := by
  intro s row h
  cases h

theorem compact_merge {g : Graph} (h : g.Compact) (source : Name) (counts : Counts) :
    (g.merge source counts).Compact := by
  intro s row hrow
  by_cases hs : s = source
  · subst hs
    unfold merge at hrow
    simp only at hrow
    split at hrow
    · exact h s row hrow
    · next hkept =>
      rw [row?, SortedMap.find?_upsert_self] at hrow
      cases hrow
      -- some count is kept, and with it an edge
      obtain ⟨t, w, hw⟩ := SortedMap.exists_find?_of_not_isEmpty hkept
      have hfind := find?_addCounts ((g.rows.find? s).getD SortedMap.empty) (edgesOf s counts) t
      rw [hw] at hfind
      exact ⟨t, _, hfind⟩
  · rw [row?_merge_of_ne g hs] at hrow
    exact h s row hrow

theorem compact_mergeAll {g : Graph} (h : g.Compact) (files : List (Name × Counts)) :
    (g.mergeAll files).Compact := by
  induction files generalizing g with
  | nil => exact h
  | cons file files ih => exact ih (compact_merge h file.1 file.2)

theorem exists_weight?_of_contains {g : Graph} (h : g.Compact) {s : Name}
    (hs : g.contains s = true) : ∃ t w, g.weight? s t = some w := by
  obtain ⟨row, hrow⟩ := Option.isSome_iff_exists.1 hs
  obtain ⟨t, w, hw⟩ := h s row hrow
  refine ⟨t, w, ?_⟩
  rw [weight?, row?, hrow, Option.bind_some, hw]

theorem contains_of_weight? {g : Graph} {s t : Name} {w : Weight} (h : g.weight? s t = some w) :
    g.contains s = true := by
  obtain ⟨row, hrow, -⟩ := Option.bind_eq_some_iff.1 h
  exact Option.isSome_iff_exists.2 ⟨row, hrow⟩

/-- Without empty rows, the classes that are bound are those with an edge. -/
theorem Compact.contains_iff {g : Graph} (h : g.Compact) {s : Name} :
    g.contains s = true ↔ ∃ t w, g.weight? s t = some w := by
  constructor
  · exact exists_weight?_of_contains h
  · intro hedge
    obtain ⟨t, w, hw⟩ := hedge
    exact contains_of_weight? hw

/-- Without empty rows, the weights say all that a graph holds. -/
theorem Compact.eq_of_weight? {g g' : Graph} (h : g.Compact) (h' : g'.Compact)
    (hw : ∀ s t, g.weight? s t = g'.weight? s t) : g = g' := by
  have hrows : ∀ s, g.row? s = g'.row? s := by
    intro s
    have hs := hw s
    cases hr : g.row? s with
    | none =>
      cases hr' : g'.row? s with
      | none => rfl
      | some row' =>
        obtain ⟨t, w, ht⟩ := h' s row' hr'
        have hst := hs t
        simp [weight?, hr, hr', ht] at hst
    | some row =>
      cases hr' : g'.row? s with
      | none =>
        obtain ⟨t, w, ht⟩ := h s row hr
        have hst := hs t
        simp [weight?, hr, hr', ht] at hst
      | some row' =>
        have hrow : row = row' := SortedMap.ext_find? fun t => by
          have hst := hs t
          simpa [weight?, hr, hr'] using hst
        rw [hrow]
  obtain ⟨rows⟩ := g
  obtain ⟨rows'⟩ := g'
  congr 1
  exact SortedMap.ext_find? hrows

/-! ## §5 The order of merges -/

theorem total_perm {files files' : List (Name × Counts)} (h : files.Perm files') (s t : Name) :
    total files s t = total files' s t :=
  (h.map _).sum_nat

/-- Merges in any order give the same graph. -/
theorem mergeAll_perm {files files' : List (Name × Counts)} (h : files.Perm files') :
    empty.mergeAll files = empty.mergeAll files' := by
  apply Compact.eq_of_weight? (compact_mergeAll compact_empty files)
    (compact_mergeAll compact_empty files')
  intro s t
  rw [weight?_mergeAll, weight?_mergeAll, total_perm h]

/-! ## §6 The closed form -/

/-- The sum of the counts of `t` in the files of the class `s`. -/
def countSum (files : List (Name × Counts)) (s t : Name) : Nat :=
  ((files.filter fun file => file.1 = s).map fun file => ((file.2.find? t).getD 0).toNat).sum

/-- Nothing adds to an edge from a class to itself; any other total is the sum of the counts. -/
theorem total_eq_countSum (files : List (Name × Counts)) (s t : Name) :
    total files s t = if s = t then 0 else countSum files s t := by
  induction files with
  | nil => simp [total, countSum]
  | cons file files ih =>
    have hcons : total (file :: files) s t = added file.1 file.2 s t + total files s t := by
      simp [total]
    rw [hcons, ih]
    by_cases hst : s = t
    · simp [added, hst]
    · by_cases hs : file.1 = s
      · simp [added, countSum, hst, hs, Ne.symm hst]
      · simp [added, countSum, hst, hs]

theorem total_ne_zero_iff {files : List (Name × Counts)} {s t : Name} :
    total files s t ≠ 0 ↔ s ≠ t ∧ 0 < countSum files s t := by
  rw [total_eq_countSum]
  by_cases hst : s = t
  · simp [hst]
  · simp [hst, Nat.pos_iff_ne_zero]

/-- A class is bound where some of its counts make an edge. -/
theorem contains_mergeAll (files : List (Name × Counts)) (s : Name) :
    (empty.mergeAll files).contains s = true ↔ ∃ t, total files s t ≠ 0 := by
  have hedge : ∀ t, (∃ w, (empty.mergeAll files).weight? s t = some w) ↔ total files s t ≠ 0 := by
    intro t
    rw [weight?_mergeAll, ← Option.isSome_iff_exists, Option.isSome_iff_ne_none, Ne,
      Weight.ofTotal_eq_none]
  rw [(compact_mergeAll compact_empty files).contains_iff]
  exact exists_congr hedge

/-- **What any merges lead to**: the weight of an edge between two classes is the sum of the counts
of its target in the files of its source, up to the greatest weight, and there is no edge where
that sum is zero; a class is bound where it has an edge; and the order of the merges is not seen. -/
theorem mergeAll_closed_form (files : List (Name × Counts)) :
    (∀ s t, ((empty.mergeAll files).weight? s t).map UInt32.toNat =
      if s ≠ t ∧ 0 < countSum files s t then some (min (countSum files s t) (UInt32.size - 1))
      else none) ∧
    (∀ s, (empty.mergeAll files).contains s = true ↔ ∃ t, s ≠ t ∧ 0 < countSum files s t) ∧
    ∀ files', files.Perm files' → empty.mergeAll files = empty.mergeAll files' := by
  refine ⟨?_, ?_, fun files' h => mergeAll_perm h⟩
  · intro s t
    rw [weight?_mergeAll, Weight.map_toNat_ofTotal]
    by_cases hzero : total files s t = 0
    · rw [if_pos hzero, if_neg fun hpos => total_ne_zero_iff.2 hpos hzero]
    · have hpos := total_ne_zero_iff.1 hzero
      rw [if_neg hzero, if_pos hpos, total_eq_countSum, if_neg hpos.1]
  · intro s
    simp only [← total_ne_zero_iff]
    exact contains_mergeAll files s

end Graph

end ClassGraph
