/-
ClassGraph.Proofs.Name.WellFormed — names without empty segments.

A name is cut into its segments at the dots. Folding keeps a name well formed,
because an anonymous class has something before its last separator; the
outermost class has no such promise, and `wellFormed_outer_iff` says exactly
when it is well formed. Names are joined from segments in two ways, from the
path of a file and from the body of a descriptor; the second is
`ofDescriptor_eq_join`.
-/
import Mathlib.Data.List.Basic
import ClassGraph.Name.OfPath
import ClassGraph.Proofs.Name.Nesting
import ClassGraph.Proofs.Text.Pieces

namespace ClassGraph

namespace Name

variable {m n : Name} {body : Text} {segments : List Text}

/-! ## §1 Segments -/

/-- A name none of whose segments is empty. -/
def WellFormed (n : Name) : Prop := ∀ segment ∈ cut '.' n, segment ≠ []

instance : DecidablePred WellFormed := fun n =>
  inferInstanceAs (Decidable (∀ segment ∈ cut '.' n, segment ≠ []))

theorem WellFormed.ne_nil (h : WellFormed n) : n ≠ [] := by
  rintro rfl
  exact h [] (List.mem_singleton.2 rfl) rfl

theorem not_wellFormed_append_dot (n : Name) : ¬ WellFormed (n ++ ['.']) := by
  intro h
  refine h [] ?_ rfl
  rw [cut_append_cons]
  exact List.mem_append_right _ (List.mem_singleton.2 rfl)

/-- The beginning of a well-formed name is one, if it does not end with a dot. -/
theorem WellFormed.beginning (h : WellFormed n) (hm : m <+: n) (hne : m ≠ [])
    (hend : m.getLast? ≠ some '.') : WellFormed m := by
  obtain ⟨t, rfl⟩ := hm
  obtain ⟨pieces, last, first, rest, hcut, -, hwhole⟩ := cut_append '.' m t
  intro segment hs
  rw [hcut] at hs
  rcases List.mem_append.1 hs with hs | hs
  · exact h segment (hwhole ▸ List.mem_append_left _ hs)
  · rw [List.mem_singleton.1 hs]
    exact last_ne_nil_of_cut hcut hne hend

theorem wellFormed_join (hne : segments ≠ [])
    (h : ∀ segment ∈ segments, segment ≠ [] ∧ '.' ∉ segment) :
    WellFormed (join ['.'] segments) := by
  intro segment hs
  rw [cut_join hne fun s hs => (h s hs).2] at hs
  exact (h segment hs).1

/-! ## §2 Folding -/

theorem isBreak_eq_false_of_mem_simple {c : Char} (h : c ∈ simple n) : isBreak c = false :=
  not_of_mem_afterLast h

theorem enclosing_eq (h : isInner n = true) :
    enclosing n = qualifier n ++ beforeLast isNesting (simple n) := by
  have hlast := beforeLast_append h (qualifier n)
  rw [qualifier_append_simple] at hlast
  exact hlast

theorem prefix_enclosing (h : isInner n = true) : enclosing n <+: n := by
  obtain ⟨c, -, hc⟩ := beforeLast_append_afterLast h
  refine ⟨c :: afterLast isNesting (simple n), ?_⟩
  rw [enclosing_eq h, List.append_assoc, hc, qualifier_append_simple]

/-- Before the last separator of an anonymous class stands a simple name. -/
theorem WellFormed.enclosing (h : WellFormed n) (ha : isAnonymous n = true) :
    WellFormed (enclosing n) := by
  have hinner := isInner_of_isAnonymous ha
  simp only [isAnonymous, Bool.and_eq_true, Bool.not_eq_true', List.isEmpty_eq_false_iff] at ha
  have hhead : beforeLast isNesting (simple n) ≠ [] := ha.1.1.2
  refine h.beginning (prefix_enclosing hinner) ?_ ?_
  · rw [enclosing_eq hinner]
    simp [hhead]
  · rw [enclosing_eq hinner, List.getLast?_append_of_ne_nil _ hhead]
    intro hdot
    have hmem : '.' ∈ simple n := by
      obtain ⟨c, -, hc⟩ := beforeLast_append_afterLast hinner
      rw [← hc]
      exact List.mem_append_left _ (List.mem_of_getLast? hdot)
    exact absurd (isBreak_eq_false_of_mem_simple hmem) (by decide)

theorem WellFormed.nearestNamed (h : WellFormed n) : WellFormed (nearestNamed n) := by
  fun_induction Name.nearestNamed n with
  | case1 n ha _ ih => exact ih (h.enclosing ha)
  | case2 n ha => exact h

theorem prefix_nearestNamed (n : Name) : nearestNamed n <+: n := by
  fun_induction nearestNamed n with
  | case1 n ha _ ih => exact ih.trans (prefix_enclosing (isInner_of_isAnonymous ha))
  | case2 n ha => exact List.prefix_rfl

/-! ## §3 The outermost class -/

/-- The package alone, with its dot, is no name. -/
theorem not_wellFormed_qualifier (h : '/' ∉ n) : ¬ WellFormed (qualifier n) := by
  rcases qualifier_cases n with hq | ⟨s, c, hc, hq⟩
  · rw [hq]
    exact fun hwf => hwf.ne_nil rfl
  · have hmem : c ∈ n := by
      rw [← qualifier_append_simple n, hq]
      simp
    have hdot : c = '.' := by
      simp only [isBreak, Bool.or_eq_true, beq_iff_eq] at hc
      exact hc.resolve_right fun e => h (e ▸ hmem)
    rw [hq, hdot]
    exact not_wellFormed_append_dot s

theorem prefix_outer (n : Name) : outer n <+: n := by
  refine ⟨(simple n).dropWhile fun c => !isNesting c, ?_⟩
  rw [outer, List.append_assoc, List.takeWhile_append_dropWhile, qualifier_append_simple]

/-- The outermost class is well formed unless nothing stands before the first separator. -/
theorem wellFormed_outer_iff (h : WellFormed n) (hslash : '/' ∉ n) :
    WellFormed (outer n) ↔ (simple n).head? ≠ some '$' := by
  cases hs : simple n with
  | nil =>
    -- a simple name is not empty, or the whole would end with its package
    have hwhole := qualifier_append_simple n
    rw [hs, List.append_nil] at hwhole
    exact absurd (hwhole.symm ▸ h) (not_wellFormed_qualifier hslash)
  | cons c rest =>
    rw [List.head?_cons]
    by_cases hc : c = '$'
    · subst hc
      have houter : outer n = qualifier n := by
        rw [outer, hs]
        exact List.append_nil _
      rw [houter]
      exact iff_of_false (not_wellFormed_qualifier hslash) (by simp)
    · have hkeep : (!isNesting c) = true := by simp [isNesting, hc]
      refine iff_of_true (h.beginning (prefix_outer n) ?_ ?_) (by simpa using hc)
      · simp [outer, hs, hkeep]
      · rw [outer, List.getLast?_append_of_ne_nil _ (by simp [hs, hkeep])]
        intro hdot
        have hmem := List.takeWhile_subset _ (List.mem_of_getLast? hdot)
        exact absurd (isBreak_eq_false_of_mem_simple hmem) (by decide)

/-! ## §4 Names of descriptors -/

theorem map_dot_of_not_mem {s : Text} (h : '/' ∉ s) :
    (s.map fun c => if c = '/' then '.' else c) = s := by
  have hid : ∀ c ∈ s, (if c = '/' then '.' else c) = id c := by
    intro c hc
    exact if_neg fun (e : c = '/') => h (e ▸ hc)
  rw [List.map_congr_left hid, List.map_id]

/-- A descriptor names a class by the segments between its slashes, type arguments left out. -/
theorem ofDescriptor_eq_join (body : Text) :
    ofDescriptor body = join ['.'] (cut '/' (body.takeWhile (· != '<'))) := by
  have hpieces : ∀ piece ∈ cut '/' (body.takeWhile (· != '<')),
      (piece.map fun c => if c = '/' then '.' else c) = id piece := fun piece hp =>
    map_dot_of_not_mem (not_mem_of_mem_cut hp)
  calc ofDescriptor body
      = (join ['/'] (cut '/' (body.takeWhile (· != '<')))).map
          fun c => if c = '/' then '.' else c := by rw [join_cut, ofDescriptor]
    _ = join ['.'] (cut '/' (body.takeWhile (· != '<'))) := by
          rw [map_join, List.map_congr_left hpieces, List.map_id, if_pos rfl]

/-- What a descriptor without a dot names is well formed where no segment of it is empty. -/
theorem wellFormed_ofDescriptor (hdot : '.' ∉ body)
    (h : ∀ segment ∈ cut '/' (body.takeWhile (· != '<')), segment ≠ []) :
    WellFormed (ofDescriptor body) := by
  rw [ofDescriptor_eq_join]
  refine wellFormed_join (cut_ne_nil _ _) fun segment hs => ⟨h segment hs, fun hm => ?_⟩
  exact hdot (List.takeWhile_subset (· != '<') (mem_of_mem_cut hs hm))

end Name

end ClassGraph
