/-
ClassGraph.Proofs.Tally.Bounded — the counts of a file are bounded by the
letters that it holds.

A line has no more references than letters `L`, and a file is counted once
more at most, for the class around a nested one. So all counts of a file
together are no more than its bytes `L` and one (`total_tally_le`). A count is
a number of 32 bits that one is added to; `countOne?` refuses where there is
no room for one more. The step lemma is that counting raises the total by one
at most, so in a file shorter than 2^32 bytes it is never refused, whatever
the order of what is counted. `counts_bounded` puts these together.
-/
import Mathlib.Algebra.Order.BigOperators.Group.List
import Mathlib.Algebra.Order.Group.Nat
import ClassGraph.Proofs.Tally.PerLine
import ClassGraph.Proofs.Text.Strict

namespace ClassGraph

variable {counts : Counts} {n : Name}

/-! ## §1 The total of counts -/

/-- All counts together. -/
def Counts.total (counts : Counts) : Nat := (counts.values.map UInt32.toNat).sum

/-- The counts with one more, unless that count has no room left. -/
def countOne? (counts : Counts) (n : Name) : Option Counts :=
  if (counts.find? n).getD 0 = Weight.greatest then none else some (countOne counts n)

theorem sum_upsertIn_le (n : Name) (l : List (Name × Weight)) :
    ((SortedMap.upsertIn n (fun old => old.getD 0 + 1) l).map fun p => p.2.toNat).sum
      ≤ (l.map fun p => p.2.toNat).sum + 1 := by
  have hone : ∀ w : Weight, (w + 1).toNat ≤ w.toNat + 1 := fun w => by
    rw [UInt32.toNat_add]
    exact Nat.mod_le _ _
  induction l with
  | nil => exact Nat.le_refl 1
  | cons p rest ih =>
    obtain ⟨k, w⟩ := p
    unfold SortedMap.upsertIn
    split
    · simp only [List.map_cons, List.sum_cons, Option.getD_none]
      have hfirst := hone 0
      simp only [UInt32.toNat_zero] at hfirst
      omega
    split
    · have hfirst := hone w
      simp only [List.map_cons, List.sum_cons, Option.getD_some]
      omega
    · simp only [List.map_cons, List.sum_cons]
      omega

/-- Counting raises the total by one at most. -/
theorem total_countOne_le (counts : Counts) (n : Name) :
    (countOne counts n).total ≤ counts.total + 1 := by
  simp only [Counts.total, SortedMap.values, List.map_map]
  exact sum_upsertIn_le n counts.toList

theorem total_foldl_countOne_le (names : List Name) (counts : Counts) :
    (names.foldl countOne counts).total ≤ counts.total + names.length := by
  induction names generalizing counts with
  | nil => exact Nat.le_refl _
  | cons n names ih =>
    have hstep := total_countOne_le counts n
    have hrest := ih (countOne counts n)
    rw [List.foldl_cons, List.length_cons]
    omega

theorem find?_le_total (counts : Counts) (n : Name) :
    ((counts.find? n).getD 0).toNat ≤ counts.total := by
  cases h : counts.find? n with
  | none => exact Nat.zero_le _
  | some w =>
    have hmem : w ∈ counts.values := List.mem_map_of_mem (SortedMap.find?_eq_some_iff.1 h)
    exact List.le_sum_of_mem (List.mem_map_of_mem hmem)

/-- As long as the total leaves room for all that is to be counted, nothing is refused. -/
theorem foldlM_countOne? (names : List Name) (counts : Counts)
    (h : counts.total + names.length < UInt32.size) :
    names.foldlM countOne? counts = some (names.foldl countOne counts) := by
  induction names generalizing counts with
  | nil => rfl
  | cons n names ih =>
    have hroom : (counts.find? n).getD 0 ≠ Weight.greatest := by
      intro he
      have hle := find?_le_total counts n
      rw [he, Weight.toNat_greatest] at hle
      rw [List.length_cons] at h
      omega
    have hstep := total_countOne_le counts n
    rw [List.length_cons] at h
    rw [List.foldlM_cons, countOne?, if_neg hroom, List.foldl_cons]
    exact ih (countOne counts n) (by omega)

/-! ## §2 The letters of a file -/

/-- The byte of the letter that references begin with. -/
def letter : UInt8 := 0x4C

/-- A byte that is no separator stands in the pieces of a cut as often as in the whole. -/
theorem sum_count_cut {sep b : UInt8} (hb : b ≠ sep) (s : Bytes) :
    ((cut sep s).map (List.count b)).sum = s.count b := by
  induction s with
  | nil => rfl
  | cons c s ih =>
    by_cases hc : c = sep
    · have hne : c ≠ b := fun e => hb (e.symm.trans hc)
      rw [List.count_cons_of_ne hne, ← ih, hc, cut_cons_sep]
      simp
    · obtain ⟨first, rest, hs, hcons⟩ := cut_append_of_not_mem (u := [c])
        (fun hm => hc (List.mem_singleton.1 hm).symm) s
      rw [hs] at ih
      rw [List.singleton_append] at hcons
      rw [hcons, List.count_cons, ← ih]
      simp only [List.map_cons, List.sum_cons, List.singleton_append, List.count_cons]
      omega

namespace Scope

variable {scope : Scope} {contents : Contents} {file : Path} {tally : Tally}

/-- A line mentions no more names than it has letters `L`. -/
theorem length_mentionsIn_le_count (scope : Scope) (this literal : Name) (line : Bytes) :
    (scope.mentionsIn this literal line).length ≤ line.count letter := by
  unfold mentionsIn
  split
  · next text h =>
    have hletter : ('L' : Char).toNat < 0x80 := by decide
    calc (scope.dependenciesIn this literal text).length
        ≤ (Reference.inLine text).keys.length := List.length_filterMap_le ..
      _ ≤ text.count 'L' := Reference.length_keys_inLine_le text
      _ = (Utf8.encode text).count letter := (Utf8.count_encode hletter text).symm
      _ = line.count letter := by rw [Utf8.encode_of_decode h]
  · exact Nat.zero_le _

/-- A file mentions no more names than it has bytes `L`, and one. -/
theorem length_mentions_le_count (scope : Scope) (literal : Name) (content : Bytes) :
    (scope.mentions literal content).length ≤ content.count letter + 1 := by
  have hlines : ((cut lineFeed content).flatMap
      (scope.mentionsIn literal.nearestNamed literal)).length ≤ content.count letter := by
    have hletter : letter ≠ lineFeed := by decide
    rw [← sum_count_cut hletter content, List.length_flatMap]
    exact List.sum_le_sum fun line _ => scope.length_mentionsIn_le_count _ literal line
  have hlast : (enclosingMention literal.nearestNamed).length ≤ 1 := by
    unfold enclosingMention
    split <;> simp
  rw [mentions, List.length_append]
  omega

theorem total_tally_le (scope : Scope) (path : Path) (literal : Name) (content : Bytes) :
    (scope.tally path literal content).1.counts.total ≤ content.count letter + 1 := by
  have hcount := total_foldl_countOne_le (scope.mentions literal content) SortedMap.empty
  have hlength := scope.length_mentions_le_count literal content
  have hempty : Counts.total SortedMap.empty = 0 := rfl
  rw [tally_counts]
  omega

/-- In a file shorter than 2^32 bytes every count has room for one more whenever one is added. -/
theorem foldlM_mentions (scope : Scope) (path : Path) (literal : Name) {content : Bytes}
    (h : content.length < UInt32.size) :
    (scope.mentions literal content).foldlM countOne? SortedMap.empty
      = some (scope.tally path literal content).1.counts := by
  have hempty : Counts.total SortedMap.empty = 0 := rfl
  have hlength := scope.length_mentions_lt literal h
  rw [tally_counts]
  exact foldlM_countOne? _ _ (by omega)

/-- **The counts of a file are bounded by its letters**: no line has more references than letters
`L`, and all counts of a file together are no more than its bytes `L` and one. In a file shorter
than 2^32 bytes, of the names that it mentions, each line's in turn and the enclosing class at the
end, every one finds room in its count. -/
theorem counts_bounded (h : (scope.outcome contents file).1 = .counted tally) :
    (∀ line : Text, (Reference.inLine line).keys.length ≤ line.count 'L') ∧
      ∃ literal content, Name.ofPath? scope.root file = .ok literal ∧
        contents file = .ok content ∧ tally.counts.total ≤ content.count letter + 1 ∧
        (content.length < UInt32.size →
          (scope.mentions literal content).foldlM countOne? SortedMap.empty
            = some tally.counts) := by
  obtain ⟨literal, content, hname, hread, -, -, hcounts⟩ := counts_of_counted h
  refine ⟨Reference.length_keys_inLine_le, literal, content, hname, hread, ?_, fun hshort => ?_⟩
  · rw [hcounts]
    exact scope.total_tally_le file literal content
  · rw [hcounts]
    exact scope.foldlM_mentions file literal hshort

/-- A line with two letters `L` whose references are both counted. -/
theorem counts_bounded_twoBodies : ∃ tally,
    (openScope.outcome (fun _ => .ok twoBodies) plainFile).1 = .counted tally ∧
      tally.counts.total ≤ 3 ∧
      (openScope.mentions ['A'] twoBodies).foldlM countOne? SortedMap.empty
        = some tally.counts := by
  obtain ⟨tally, houtcome, -, -⟩ := twoBodies_counted
  obtain ⟨-, literal, content, hname, hread, htotal, hroom⟩ := counts_bounded houtcome
  have hfile : Name.ofPath? openScope.root plainFile = .ok ['A'] := by decide +kernel
  rw [hfile] at hname
  cases hname
  cases hread
  exact ⟨tally, houtcome, htotal, hroom (by decide)⟩

end Scope

end ClassGraph
