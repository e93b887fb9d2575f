/-
ClassGraph.Proofs.Name.Folding — the named class that an anonymous one is
folded into.

Folding cuts the last `$` of the whole name for as long as the simple name
ends in a number. What it cuts away is a run of numbers, each behind a `$`,
and every name on the way is anonymous; so it ends at the longest name with
such a run behind it that has a name of its own. The package and the
outermost class stay what they were. `owns_nearestNamed` puts this together.

Everything goes by the recursion of `nearestNamed`: one lemma says what
`enclosing` takes off an anonymous name, the others follow it along.
-/
import ClassGraph.Proofs.Name.WellFormed

namespace ClassGraph.Name

variable {m n : Name} {number : Text} {groups kept : List Text}

/-! ## §1 Numbers behind separators -/

/-- One digit or more. -/
def isNumber (s : Text) : Bool := !s.isEmpty && s.all Char.isDigit

/-- Texts in a row, each behind a nesting separator. -/
def nested (groups : List Text) : Text := groups.flatMap ('$' :: ·)

theorem append_nested_concat (m : Name) (groups : List Text) (number : Text) :
    m ++ nested (groups ++ [number]) = (m ++ nested groups) ++ '$' :: number := by
  simp [nested]

theorem not_isNesting_of_isNumber (h : isNumber number = true) : number.any isNesting = false := by
  simp only [isNumber, Bool.and_eq_true, List.all_eq_true] at h
  rw [List.any_eq_false]
  intro c hc hnesting
  have hdigit := h.2 c hc
  rw [beq_iff_eq.1 hnesting] at hdigit
  exact absurd hdigit (by decide)

/-- The last group of a name is what its innermost nested segment was cut at. -/
theorem enclosing_append_number (h : isNumber number = true) (m : Name) :
    enclosing (m ++ '$' :: number) = m := by
  have hany : ('$' :: number).any isNesting = true := rfl
  have hrev : ∀ c ∈ number.reverse, (!isNesting c) = true := fun c hc => by
    simpa using List.any_eq_false.1 (not_isNesting_of_isNumber h) c (List.mem_reverse.1 hc)
  have hnone : beforeLast isNesting ('$' :: number) = [] := by
    rw [beforeLast, List.reverse_cons, List.dropWhile_append_of_pos hrev]
    rfl
  rw [enclosing, beforeLast_append hany, hnone, List.append_nil]

/-! ## §2 One step of folding -/

/-- An anonymous name is the enclosing name and a number. -/
theorem exists_number_of_isAnonymous (h : isAnonymous n = true) :
    ∃ number, isNumber number = true ∧ n = enclosing n ++ '$' :: number := by
  have hinner := isInner_of_isAnonymous h
  obtain ⟨c, hc, hsimple⟩ := beforeLast_append_afterLast hinner
  rw [beq_iff_eq.1 hc] at hsimple
  simp only [isAnonymous, Bool.and_eq_true] at h
  refine ⟨afterLast isNesting (simple n), ?_, ?_⟩
  · rw [isNumber, h.1.2, h.2]
    rfl
  · rw [enclosing_eq hinner, List.append_assoc, hsimple, qualifier_append_simple]

theorem simple_enclosing (h : isInner n = true) :
    simple (enclosing n) = beforeLast isNesting (simple n) := by
  obtain ⟨c, -, hsimple⟩ := beforeLast_append_afterLast h
  rw [enclosing_eq h]
  refine simple_qualifier_append fun b hb => isBreak_eq_false_of_mem_simple (n := n) ?_
  rw [← hsimple]
  exact List.mem_append_left _ hb

theorem qualifier_enclosing (h : isInner n = true) : qualifier (enclosing n) = qualifier n := by
  have hwhole := qualifier_append_simple (enclosing n)
  rw [simple_enclosing h, enclosing_eq h] at hwhole
  rw [enclosing_eq h]
  exact List.append_cancel_right hwhole

/-- A nested class and the class around it lie in one outermost class. -/
theorem outer_enclosing (h : isInner n = true) : outer (enclosing n) = outer n := by
  obtain ⟨c, hc, hsimple⟩ := beforeLast_append_afterLast h
  have hstop : (c :: afterLast isNesting (simple n)).takeWhile (fun b => !isNesting b) = [] := by
    simp [hc]
  have htake : (beforeLast isNesting (simple n)).takeWhile (fun b => !isNesting b)
      = (simple n).takeWhile fun b => !isNesting b := by
    conv => rhs; rw [← hsimple]
    rw [List.takeWhile_append, hstop, List.append_nil]
    split
    · next hlength => exact (List.takeWhile_prefix _).eq_of_length hlength
    · rfl
  rw [outer, outer, qualifier_enclosing h, simple_enclosing h, htake]

theorem enclosing_ne_nil (h : isAnonymous n = true) : enclosing n ≠ [] := by
  have hinner := isInner_of_isAnonymous h
  simp only [isAnonymous, Bool.and_eq_true, Bool.not_eq_true', List.isEmpty_eq_false_iff] at h
  rw [enclosing_eq hinner]
  exact List.append_ne_nil_of_right_ne_nil _ h.1.1.2

/-! ## §3 Folding -/

theorem nearestNamed_of_not_isAnonymous (h : isAnonymous n = false) : nearestNamed n = n := by
  rw [nearestNamed, dif_neg (by simp [h])]

theorem outer_nearestNamed (n : Name) : outer (nearestNamed n) = outer n := by
  fun_induction nearestNamed n with
  | case1 n h _ ih => exact ih.trans (outer_enclosing (isInner_of_isAnonymous h))
  | case2 n h => rfl

theorem nearestNamed_ne_nil (h : n ≠ []) : nearestNamed n ≠ [] := by
  fun_induction nearestNamed n with
  | case1 n ha _ ih => exact ih (enclosing_ne_nil ha)
  | case2 n ha => exact h

/-- Folding cuts a run of numbers away, and every name on the way is anonymous. -/
theorem exists_groups (n : Name) :
    ∃ groups, (∀ number ∈ groups, isNumber number = true) ∧ n = nearestNamed n ++ nested groups ∧
      ∀ kept, kept <+: groups → kept ≠ [] →
        isAnonymous (nearestNamed n ++ nested kept) = true := by
  fun_induction nearestNamed n with
  | case1 n h _ ih =>
    obtain ⟨number, hnumber, hn⟩ := exists_number_of_isAnonymous h
    obtain ⟨groups, hgroups, hwhole, hkept⟩ := ih
    have hall : n = nearestNamed (enclosing n) ++ nested (groups ++ [number]) := by
      rw [append_nested_concat, ← hwhole]
      exact hn
    refine ⟨groups ++ [number], ?_, hall, fun kept hprefix hne => ?_⟩
    · intro g hg
      rcases List.mem_append.1 hg with hg | hg
      · exact hgroups g hg
      · exact List.mem_singleton.1 hg ▸ hnumber
    · rcases List.prefix_concat_iff.1 hprefix with rfl | hprefix
      · exact hall ▸ h
      · exact hkept kept hprefix hne
  | case2 n h =>
    refine ⟨[], by simp, by simp [nested], fun kept hprefix hne => ?_⟩
    exact absurd (List.prefix_nil.1 hprefix) hne

/-- Any other name with numbers behind it that is not anonymous is shorter. -/
theorem prefix_nearestNamed_of_groups (hgroups : ∀ number ∈ groups, isNumber number = true)
    (hn : n = m ++ nested groups) (hm : isAnonymous m = false) : m <+: nearestNamed n := by
  fun_induction nearestNamed n generalizing groups with
  | case1 n h _ ih =>
    rcases List.eq_nil_or_concat' groups with rfl | ⟨before, number, rfl⟩
    · -- without a group `m` is the anonymous name itself
      rw [hn, nested, List.flatMap_nil, List.append_nil, hm] at h
      cases h
    · rw [append_nested_concat] at hn
      refine ih (fun g hg => hgroups g (List.mem_append_left _ hg)) ?_
      rw [hn]
      exact enclosing_append_number (hgroups number (by simp)) _
  | case2 n h => exact ⟨nested groups, hn.symm⟩

theorem outer_eq_self_iff : outer n = n ↔ isInner n = false := by
  constructor
  · intro h
    rw [← h]
    exact isInner_outer n
  · intro h
    have htake : (simple n).takeWhile (fun c => !isNesting c) = simple n :=
      takeWhile_of_forall fun c hc => by simpa using List.any_eq_false.1 h c hc
    rw [outer, htake, qualifier_append_simple]

/-- `m` is the named class that the code of `n` belongs to. -/
structure Owns (m n : Name) : Prop where
  named : isAnonymous m = false
  /-- The name of `n` is that of `m` with numbers behind it, and stays anonymous as long as one of
  the numbers is kept. -/
  groups : ∃ groups, (∀ number ∈ groups, isNumber number = true) ∧ n = m ++ nested groups ∧
    ∀ kept, kept <+: groups → kept ≠ [] → isAnonymous (m ++ nested kept) = true
  /-- No longer name would do. -/
  longest : ∀ m' groups, (∀ number ∈ groups, isNumber number = true) → n = m' ++ nested groups →
    isAnonymous m' = false → m' <+: m
  outer_eq : outer m = outer n
  fixed : nearestNamed m = m
  ne_nil : n ≠ [] → m ≠ []

/-- **Folding finds the owner of every name**, and the outermost class is nested in no other: it is
the class itself exactly where that is not nested. -/
theorem owns_nearestNamed (n : Name) :
    Owns (nearestNamed n) n ∧ isInner (outer n) = false ∧ (outer n = n ↔ isInner n = false) := by
  refine ⟨?_, isInner_outer n, outer_eq_self_iff⟩
  exact {
    named := isAnonymous_nearestNamed n
    groups := exists_groups n
    longest := fun m' groups => prefix_nearestNamed_of_groups
    outer_eq := outer_nearestNamed n
    fixed := nearestNamed_of_not_isAnonymous (isAnonymous_nearestNamed n)
    ne_nil := nearestNamed_ne_nil }

/-- A package may hold `$` and digits: only the simple name is folded, and never all of it. -/
example : nearestNamed "a$1.$2$3$4".toList = "a$1.$2".toList := by decide +kernel

end ClassGraph.Name
