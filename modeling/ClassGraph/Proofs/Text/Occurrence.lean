/-
ClassGraph.Proofs.Text.Occurrence — one text written as a concatenation in
two ways.

A reader that looks for a separator knows its text as what precedes the
first separator and what follows it; a statement about the text knows it
cut at some other place. The lemmas here carry one cut over to the other:

  * `append_avoiding`     — a part without the separator lies before it;
  * `first_or_later`      — the first separator is the one in question, or
                            an earlier one;
  * `separator_in_left`   — a separator that the right part lacks stands in
                            the left part;
  * `prefix_append_cases` — where a text that is cut off early ends.
-/
import ClassGraph.Text.Basic

namespace ClassGraph

variable {α : Type} {c : α} {u v w x y : List α}

/-! ## §1 Two cuts of one list -/

/-- What is read off the front without meeting `c` lies before any `c` of the list. -/
theorem append_avoiding (hc : c ∉ u) (h : u ++ v = x ++ c :: y) :
    ∃ w, x = u ++ w ∧ v = w ++ c :: y := by
  rcases List.append_eq_append_iff.1 h with ⟨w, hx, hv⟩ | ⟨w, hu, hy⟩
  · exact ⟨w, hx, hv⟩
  · cases w with
    | nil => exact ⟨[], by simpa using hu.symm, by simpa using hy.symm⟩
    | cons b w =>
      obtain ⟨rfl, -⟩ := List.cons_eq_cons.1 hy
      exact absurd (hu ▸ by simp) hc

/-- The first `c` of a list is a given one, or stands before it. -/
theorem first_or_later (hc : c ∉ u) (h : u ++ c :: v = x ++ c :: y) :
    (u = x ∧ v = y) ∨ ∃ w, x = u ++ c :: w ∧ v = w ++ c :: y := by
  obtain ⟨w, hx, hv⟩ := append_avoiding hc h
  cases w with
  | nil =>
    refine .inl ⟨by simpa using hx.symm, ?_⟩
    simpa using hv
  | cons b w =>
    obtain ⟨rfl, htail⟩ := List.cons_eq_cons.1 hv
    exact .inr ⟨w, hx, htail⟩

/-- A `c` that the right part of a list lacks stands in the left part. -/
theorem separator_in_left (hc : c ∉ y) (h : x ++ y = u ++ c :: v) :
    ∃ w, x = u ++ c :: w ∧ v = w ++ y := by
  rcases List.append_eq_append_iff.1 h with ⟨w, hu, hy⟩ | ⟨w, hx, hv⟩
  · exact absurd (hy ▸ by simp) hc
  · cases w with
    | nil => exact absurd (by rw [List.nil_append] at hv; exact hv ▸ List.mem_cons_self ..) hc
    | cons b w =>
      obtain ⟨rfl, htail⟩ := List.cons_eq_cons.1 hv
      exact ⟨w, hx, htail⟩

/-- A `c` that the middle part of a list lacks stands before it or after it. -/
theorem separator_around (hc : c ∉ y) (h : x ++ (y ++ w) = u ++ c :: v) :
    (∃ z, x = u ++ c :: z ∧ v = z ++ (y ++ w)) ∨ ∃ z, u = x ++ (y ++ z) ∧ w = z ++ c :: v := by
  rcases List.append_eq_append_iff.1 h with ⟨z, hu, hyw⟩ | ⟨z, hx, hv⟩
  · obtain ⟨z', rfl, hw⟩ := append_avoiding hc hyw
    exact .inr ⟨z', hu, hw⟩
  · cases z with
    | nil =>
      rw [List.append_nil] at hx
      rw [List.nil_append] at hv
      obtain ⟨z', hz, hw⟩ := append_avoiding hc (x := []) (by simpa using hv.symm)
      obtain ⟨rfl, rfl⟩ := List.append_eq_nil_iff.1 hz.symm
      exact .inr ⟨[], by simpa using hx.symm, by simpa using hw⟩
    | cons b z =>
      obtain ⟨rfl, htail⟩ := List.cons_eq_cons.1 hv
      exact .inl ⟨z, hx, htail⟩

/-- A prefix of a concatenation ends in the left part, or takes all of it. -/
theorem prefix_append_cases (h : u <+: x ++ y) : u <+: x ∨ ∃ w, w <+: y ∧ u = x ++ w := by
  rcases List.prefix_or_prefix_of_prefix h (List.prefix_append x y) with hu | ⟨w, rfl⟩
  · exact .inl hu
  · exact .inr ⟨w, (List.prefix_append_right_inj x).1 h, rfl⟩

/-- A `c` behind a part without it makes a prefix take all of that part, and the `c`. -/
theorem prefix_append_cons_of_mem (hc : c ∉ x) (hm : c ∈ u) (h : u <+: x ++ c :: y) :
    ∃ w, w <+: y ∧ u = x ++ c :: w := by
  rcases prefix_append_cases h with hu | ⟨w, hw, rfl⟩
  · exact absurd (hu.subset hm) hc
  · rcases List.prefix_cons_iff.1 hw with rfl | ⟨v, rfl, hv⟩
    · exact absurd (by simpa using hm) hc
    · exact ⟨v, hv, rfl⟩

/-! ## §2 Up to a separator -/

section Separator

variable [DecidableEq α]

theorem ne_of_avoiding (h : c ∉ u) : ∀ a ∈ u, (a != c) = true := by
  intro a ha
  have hne : a ≠ c := fun e => h (e ▸ ha)
  simpa using hne

theorem dropWhile_of_not_mem (h : c ∉ u) : u.dropWhile (· != c) = [] := by
  have hdrop : (u ++ []).dropWhile (· != c) = ([] : List α).dropWhile (· != c) :=
    List.dropWhile_append_of_pos (ne_of_avoiding h)
  simpa using hdrop

theorem dropWhile_append_cons (h : c ∉ u) : (u ++ c :: v).dropWhile (· != c) = c :: v := by
  rw [List.dropWhile_append_of_pos (ne_of_avoiding h)]
  simp

theorem takeWhile_append_cons (h : c ∉ u) : (u ++ c :: v).takeWhile (· != c) = u := by
  rw [List.takeWhile_append_of_pos (ne_of_avoiding h)]
  simp

end Separator

end ClassGraph
