/-
ClassGraph.Proofs.Text.Pieces — cutting what was joined, and cutting what was
appended.

A cut at a separator is undone by a join (`join_cut`). Here is the other
direction, with the cut of a concatenation that it rests on. The main
statements:

  * `cut_append`     — appending joins two pieces to one and keeps the others;
  * `cut_join`       — pieces without the separator are had back from a join;
  * `join_injective` — so different pieces are joined to different lists.
-/
import Mathlib.Data.List.TakeWhile
import ClassGraph.Text.Basic

namespace ClassGraph

variable {α : Type} {sep c : α} {u : List α} {pieces others : List (List α)}

/-! ## §1 Joining -/

theorem join_append {sep : List α} (hp : pieces ≠ []) (ho : others ≠ []) :
    join sep (pieces ++ others) = join sep pieces ++ sep ++ join sep others := by
  induction pieces with
  | nil => exact absurd rfl hp
  | cons piece rest ih =>
    cases rest with
    | nil => exact join_cons ho
    | cons next rest =>
      have hfirst : join sep (piece :: next :: rest)
          = piece ++ sep ++ join sep (next :: rest) := rfl
      rw [List.cons_append, join_cons (by simp), ih (by simp), hfirst]
      simp only [List.append_assoc]

/-- What is appended to a join goes into its last piece. -/
theorem join_append_last (sep : List α) (pieces : List (List α)) (last t : List α) :
    join sep (pieces ++ [last]) ++ t = join sep (pieces ++ [last ++ t]) := by
  by_cases h : pieces = []
  · subst h
    rfl
  · rw [join_append h (by simp), join_append h (by simp), List.append_assoc]
    rfl

/-- A join holds nothing but separators and what its pieces hold. -/
theorem mem_join (h : c ∈ join [sep] pieces) : c = sep ∨ ∃ piece ∈ pieces, c ∈ piece := by
  induction pieces with
  | nil => simp at h
  | cons piece rest ih =>
    by_cases hr : rest = []
    · subst hr
      exact .inr ⟨piece, List.mem_cons_self .., h⟩
    · rw [join_cons hr, List.append_assoc, List.mem_append, List.mem_append] at h
      rcases h with h | h | h
      · exact .inr ⟨piece, List.mem_cons_self .., h⟩
      · exact .inl (List.mem_singleton.1 h)
      · rcases ih h with rfl | ⟨other, hother, hc⟩
        · exact .inl rfl
        · exact .inr ⟨other, List.mem_cons_of_mem _ hother, hc⟩

theorem mem_join_of_mem {piece : List α} (hp : piece ∈ pieces) (hc : c ∈ piece) (sep : List α) :
    c ∈ join sep pieces := by
  induction pieces with
  | nil => simp at hp
  | cons first rest ih =>
    by_cases hr : rest = []
    · subst hr
      rw [join_singleton, ← List.mem_singleton.1 hp]
      exact hc
    · rw [join_cons hr, List.mem_append, List.mem_append]
      rcases List.mem_cons.1 hp with rfl | hp
      · exact .inl (.inl hc)
      · exact .inr (ih hp)

theorem map_join {β : Type} (f : α → β) (sep : α) (pieces : List (List α)) :
    (join [sep] pieces).map f = join [f sep] (pieces.map (List.map f)) := by
  induction pieces with
  | nil => rfl
  | cons piece rest ih =>
    by_cases hr : rest = []
    · subst hr
      rfl
    · rw [join_cons hr, List.map_cons, join_cons (by simpa using hr), ← ih]
      simp

/-! ## §2 Around the last separator -/

/-- What precedes the last separator of a list is had from any part that holds that separator. -/
theorem beforeLast_append {p : α → Bool} {t : List α} (h : t.any p = true) (s : List α) :
    beforeLast p (s ++ t) = s ++ beforeLast p t := by
  have hdrop : (t.reverse.dropWhile fun c => !p c) ≠ [] := by
    intro he
    obtain ⟨c, hc, hp⟩ := List.any_eq_true.1 h
    have hall := List.dropWhile_eq_nil_iff.1 he c (List.mem_reverse.2 hc)
    simp [hp] at hall
  obtain ⟨c, rest, hc⟩ := List.exists_cons_of_ne_nil hdrop
  simp [beforeLast, List.dropWhile_append, hc]

/-- What follows the last separator of a list is had from any part that holds that separator. -/
theorem afterLast_append {p : α → Bool} {t : List α} (h : t.any p = true) (s : List α) :
    afterLast p (s ++ t) = afterLast p t := by
  obtain ⟨c, hc, hp⟩ := List.any_eq_true.1 h
  have hstop : (t.reverse.takeWhile fun c => !p c).length ≠ t.reverse.length := by
    intro hlength
    have hall := List.takeWhile_eq_self_iff.1 ((List.takeWhile_prefix _).eq_of_length hlength) c
      (List.mem_reverse.2 hc)
    simp [hp] at hall
  rw [afterLast, afterLast, List.reverse_append, List.takeWhile_append, if_neg hstop]

/-- A part without separators goes to what follows the last one. -/
theorem afterLast_append_of_forall {p : α → Bool} {t : List α} (h : ∀ c ∈ t, p c = false)
    (s : List α) : afterLast p (s ++ t) = afterLast p s ++ t := by
  have hrev : ∀ c ∈ t.reverse, (!p c) = true := fun c hc => by
    simpa using h c (List.mem_reverse.1 hc)
  rw [afterLast, afterLast, List.reverse_append, List.takeWhile_append_of_pos hrev,
    List.reverse_append, List.reverse_reverse]

/-! ## §3 The pieces of a concatenation -/

variable [DecidableEq α]

theorem mem_of_mem_cut {piece : List α} (hp : piece ∈ cut sep u) (hc : c ∈ piece) : c ∈ u := by
  rw [← join_cut sep u]
  exact mem_join_of_mem hp hc [sep]

/-- A separator between two lists keeps their pieces apart. -/
theorem cut_append_cons (sep : α) (u v : List α) :
    cut sep (u ++ sep :: v) = cut sep u ++ cut sep v := by
  induction u with
  | nil => exact cut_cons_sep sep v
  | cons c u ih =>
    rw [List.cons_append]
    by_cases hc : c = sep
    · rw [hc, cut_cons_sep, cut_cons_sep, ih, List.cons_append]
    · simp only [cut, if_neg hc, ih]
      cases hu : cut sep u with
      | nil => exact absurd hu (cut_ne_nil sep u)
      | cons piece rest => rfl

/-- Where nothing separates two lists, the last piece of the one and the first piece of the other
are parts of one piece. -/
theorem cut_append (sep : α) (u v : List α) :
    ∃ pieces last first rest, cut sep u = pieces ++ [last] ∧ cut sep v = first :: rest ∧
      cut sep (u ++ v) = pieces ++ (last ++ first) :: rest := by
  induction u with
  | nil =>
    obtain ⟨first, rest, hv⟩ := List.exists_cons_of_ne_nil (cut_ne_nil sep v)
    exact ⟨[], [], first, rest, rfl, hv, hv⟩
  | cons c u ih =>
    obtain ⟨pieces, last, first, rest, hu, hv, huv⟩ := ih
    rw [List.cons_append]
    by_cases hc : c = sep
    · refine ⟨[] :: pieces, last, first, rest, ?_, hv, ?_⟩
      · rw [hc, cut_cons_sep, hu, List.cons_append]
      · rw [hc, cut_cons_sep, huv, List.cons_append]
    · simp only [cut, if_neg hc, hu, huv]
      -- the new character goes into the first piece, which may be the last one as well
      cases pieces with
      | nil => exact ⟨[], c :: last, first, rest, rfl, hv, rfl⟩
      | cons piece pieces => exact ⟨(c :: piece) :: pieces, last, first, rest, rfl, hv, rfl⟩

/-- A list without the separator goes into the first piece of what follows it. -/
theorem cut_append_of_not_mem (h : sep ∉ u) (v : List α) :
    ∃ first rest, cut sep v = first :: rest ∧ cut sep (u ++ v) = (u ++ first) :: rest := by
  obtain ⟨pieces, last, first, rest, hu, hv, huv⟩ := cut_append sep u v
  rw [cut_of_not_mem h] at hu
  cases pieces with
  | nil =>
    obtain ⟨rfl, -⟩ := List.cons_eq_cons.1 hu
    exact ⟨first, rest, hv, huv⟩
  | cons piece pieces => simp at hu

/-- Only an empty list, and one that ends with a separator, has an empty last piece. -/
theorem last_ne_nil_of_cut {last : List α} (h : cut sep u = pieces ++ [last]) (hne : u ≠ [])
    (hend : u.getLast? ≠ some sep) : last ≠ [] := by
  rintro rfl
  have hu := join_cut sep u
  rw [h] at hu
  by_cases hp : pieces = []
  · subst hp
    exact hne hu.symm
  · rw [join_append hp (by simp)] at hu
    rw [← hu] at hend
    simp at hend

/-! ## §4 Pieces that were joined -/

theorem cut_join (hne : pieces ≠ []) (h : ∀ piece ∈ pieces, sep ∉ piece) :
    cut sep (join [sep] pieces) = pieces := by
  induction pieces with
  | nil => exact absurd rfl hne
  | cons piece rest ih =>
    have hpiece := h piece (List.mem_cons_self ..)
    have hrest := fun p hp => h p (List.mem_cons_of_mem _ hp)
    cases rest with
    | nil => exact cut_of_not_mem hpiece
    | cons next rest =>
      rw [join_cons (by simp), List.append_assoc, List.singleton_append,
        cut_append_sep hpiece, ih (by simp) hrest]

/-- Pieces without the separator are told by their join. -/
theorem join_injective (hp : pieces ≠ []) (hpieces : ∀ piece ∈ pieces, sep ∉ piece)
    (ho : others ≠ []) (hothers : ∀ piece ∈ others, sep ∉ piece)
    (h : join [sep] pieces = join [sep] others) : pieces = others := by
  rw [← cut_join hp hpieces, h, cut_join ho hothers]

end ClassGraph
