/-
ClassGraph.Proofs.Reference.Count — how many references a line can hold.

Each reference has an `L` of its own: the text of type arguments and the text
behind them are read apart, so no letter is read twice. A line with a
reference also has a `;`. The main statements:

  * `length_keys_inLine_le` — no more references than letters `L`;
  * `length_keys_inLine_lt` — fewer references than characters.
-/
import ClassGraph.Proofs.Reference.Reads

namespace ClassGraph.Reference

variable {bound : Option Nat} {depth : Nat} {name text : Text} {found : List Sighting}

theorem length_references_sighted_le (name : Text) :
    ((sighted name).filterMap Sighting.body?).length ≤ 1 := by
  unfold sighted
  split
  · simp
  · simp [Sighting.body?]

/-- What is sighted in arguments is bounded as what is read there is. -/
theorem length_references_inner_le {inner : List Sighting} {n : Nat}
    (hdeep : isRead bound depth = false → inner = [.tooDeep depth])
    (hread : isRead bound depth = true → (inner.filterMap Sighting.body?).length ≤ n) :
    (inner.filterMap Sighting.body?).length ≤ n := by
  cases hr : isRead bound depth with
  | false =>
    rw [hdeep hr]
    simp [List.filterMap_cons, Sighting.body?]
  | true => exact hread hr

theorem Reads.length_references_le (h : Reads bound depth text found) :
    (found.filterMap Sighting.body?).length ≤ text.count 'L' := by
  induction h with
  | quiet => simp
  | unended => simp
  | @word depth lead body rest found hl hb hw hr ih =>
    simp only [List.count_append, List.count_cons] at ih ⊢
    omega
  | plain hl hb ha hr ih =>
    simp only [List.filterMap_cons, Sighting.body?, List.length_cons, List.count_append,
      List.count_cons] at ih ⊢
    simp
    omega
  | @closed depth lead name inside args rest inner found hl ho hc hdeep hread hrest ihIn ihOut =>
    have hname := length_references_sighted_le name
    have hinner := length_references_inner_le hdeep ihIn
    rw [closing_eq_some hc]
    simp only [List.filterMap_append, List.length_append, List.count_append, List.count_cons]
    simp
    omega
  | @opened depth lead name inside inner hl ho hc hdeep hread ihIn =>
    have hname := length_references_sighted_le name
    have hinner := length_references_inner_le hdeep ihIn
    simp only [List.filterMap_append, List.length_append, List.count_append, List.count_cons]
    simp
    omega

theorem Reads.references_eq_nil (h : Reads bound depth text found) (hend : ';' ∉ text) :
    found.filterMap Sighting.body? = [] := by
  cases h with
  | quiet => rfl
  | unended => rfl
  | word => exact absurd (by simp) hend
  | plain => exact absurd (by simp) hend
  | closed _ ho => exact absurd (by simp [ho.ends]) hend
  | opened _ ho => exact absurd (by simp [ho.ends]) hend

/-- A line holds no more references than letters `L`. -/
theorem length_keys_inLine_le (line : Text) : (inLine line).keys.length ≤ line.count 'L' :=
  Nat.le_trans (NameSet.length_keys_ofList_le _)
    (reads_scan (some maxDepth) 0 line).length_references_le

theorem count_add_count_le {a b : Char} (h : a ≠ b) (s : Text) :
    s.count a + s.count b ≤ s.length := by
  induction s with
  | nil => simp
  | cons c s ih =>
    rw [List.length_cons]
    by_cases ha : c = a
    · have hb : c ≠ b := fun e => h (ha.symm.trans e)
      rw [List.count_cons_of_ne hb, ha, List.count_cons_self]
      omega
    · rw [List.count_cons_of_ne ha]
      have hb := List.count_cons (a := b) (b := c) (l := s)
      split at hb <;> omega

/-- A line that is not empty has fewer references than characters. -/
theorem length_keys_inLine_lt (line : Text) : (inLine line).keys.length ≤ line.length - 1 := by
  by_cases hend : ';' ∈ line
  · have hkeys := length_keys_inLine_le line
    have hcount := count_add_count_le (a := 'L') (b := ';') (by decide) line
    have hpos := List.count_pos_iff.2 hend
    omega
  · have hkeys := NameSet.length_keys_ofList_le ((sightings line).filterMap Sighting.body?)
    have hnil := (reads_scan (some maxDepth) 0 line).references_eq_nil hend
    have hnone : (sightings line).filterMap Sighting.body? = [] := hnil
    rw [hnone] at hkeys
    rw [inLine, hnone]
    simp only [List.length_nil] at hkeys
    omega

end ClassGraph.Reference
