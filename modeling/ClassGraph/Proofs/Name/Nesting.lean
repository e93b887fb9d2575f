/-
ClassGraph.Proofs.Name.Nesting — classes and the classes around them.

The outermost class has no nesting separator in its simple name, so it is
neither nested nor anonymous, and a nested class differs from it. A name that
folding changes was anonymous. The main statements:

  * `isInner_outer`, `outer_ne` — the outermost class is not nested, so a
    nested class never encloses itself;
  * `isAnonymous_of_nearestNamed_ne` — only anonymous names are folded.
-/
import ClassGraph.Name.Basic

namespace ClassGraph.Name

variable {n : Name}

/-- Either there is no package, or it ends at a break. -/
theorem qualifier_cases (n : Name) :
    qualifier n = [] ∨ ∃ s c, isBreak c = true ∧ qualifier n = s ++ [c] := by
  cases h : n.any isBreak with
  | false =>
    left
    simp [qualifier, simple, afterLast_of_not_any h]
  | true =>
    right
    obtain ⟨c, hc, he⟩ := beforeLast_append_afterLast h
    refine ⟨beforeLast isBreak n, c, hc, ?_⟩
    have hwhole := qualifier_append_simple n
    have hcut : qualifier n ++ simple n = (beforeLast isBreak n ++ [c]) ++ simple n := by
      rw [hwhole]
      simpa [simple] using he.symm
    exact List.append_cancel_right hcut

/-- A segment that follows a package is the simple name of the two together. -/
theorem simple_qualifier_append {s : Text} (h : ∀ c ∈ s, isBreak c = false) :
    simple (qualifier n ++ s) = s := by
  have hpos : ∀ c ∈ s.reverse, (!isBreak c) = true := fun c hc => by
    simpa using h c (List.mem_reverse.1 hc)
  rcases qualifier_cases n with hq | ⟨u, c, hc, hq⟩
  · rw [hq, List.nil_append]
    exact afterLast_of_not_any (List.any_eq_false.2 fun c hc => by simp [h c hc])
  · rw [hq, simple, afterLast, List.reverse_append, List.takeWhile_append_of_pos hpos]
    simp [hc]

theorem simple_outer (n : Name) :
    simple (outer n) = (simple n).takeWhile fun c => !isNesting c := by
  refine simple_qualifier_append fun c hc => ?_
  exact not_of_mem_afterLast (List.takeWhile_subset _ hc)

/-- The outermost class is not nested. -/
theorem isInner_outer (n : Name) : isInner (outer n) = false := by
  rw [isInner, simple_outer, List.any_eq_false]
  intro c hc
  have := of_mem_takeWhile hc
  simpa using this

theorem outer_ne (h : isInner n = true) : outer n ≠ n := by
  intro he
  have hout := isInner_outer n
  rw [he, h] at hout
  cases hout

theorem isAnonymous_eq_false_of_not_isInner (h : isInner n = false) : isAnonymous n = false := by
  cases ha : isAnonymous n with
  | false => rfl
  | true =>
    rw [isInner_of_isAnonymous ha] at h
    cases h

theorem isAnonymous_outer (n : Name) : isAnonymous (outer n) = false :=
  isAnonymous_eq_false_of_not_isInner (isInner_outer n)

/-- Folding changes anonymous names only. -/
theorem isAnonymous_of_nearestNamed_ne (h : nearestNamed n ≠ n) : isAnonymous n = true := by
  cases ha : isAnonymous n with
  | true => rfl
  | false =>
    rw [nearestNamed, dif_neg (by simp [ha])] at h
    exact absurd rfl h

end ClassGraph.Name
