/-
ClassGraph.Proofs.Tally.Mentions — the counts of a file as numbers of
mentions.

What a file counts is a list of names, each line's in turn and the enclosing
class at the end, and the count of a name is how often the list holds it
(`find?_tally`). A file that is shorter than 2^32 bytes mentions too few
names for a count to wrap around (`length_mentions_lt`).
-/
import ClassGraph.Tally
import ClassGraph.Proofs.Graph.Accumulation
import ClassGraph.Proofs.Name.Nesting
import ClassGraph.Proofs.Reference.Count

namespace ClassGraph

/-! ## §1 Counting a list of names -/

theorem find?_foldl_countOne (names : List Name) (counts : Counts) (k : Name) :
    (names.foldl countOne counts).find? k =
      if names.count k = 0 then counts.find? k
      else some ((counts.find? k).getD 0 + UInt32.ofNat (names.count k)) := by
  induction names generalizing counts with
  | nil => simp
  | cons n names ih =>
    rw [List.foldl_cons, ih, find?_countOne]
    by_cases h : n = k
    · subst h
      rw [if_pos rfl, List.count_cons_self, if_neg (Nat.succ_ne_zero _)]
      split
      · next h0 =>
        rw [h0]
        rfl
      · rw [Option.getD_some, UInt32.ofNat_add, UInt32.add_assoc, UInt32.add_comm 1]
        rfl
    · have hk : k ≠ n := fun e => h e.symm
      simp only [if_neg hk, List.count_cons_of_ne h]

namespace Scope

variable {scope : Scope} {path : Path} {literal s t : Name} {content line : Bytes}

/-! ## §2 The names that a file mentions -/

/-- The names that a line mentions. -/
def mentionsIn (scope : Scope) (this literal : Name) (line : Bytes) : List Name :=
  match Utf8.decode line with
  | .ok line => scope.dependenciesIn this literal line
  | .error _ => []

/-- The class around a nested class, which its file always mentions. -/
def enclosingMention (n : Name) : List Name := if n.isInner then [n.outer] else []

/-- The names that the file of the class `literal` mentions. -/
def mentions (scope : Scope) (literal : Name) (content : Bytes) : List Name :=
  (cut lineFeed content).flatMap (scope.mentionsIn literal.nearestNamed literal)
    ++ enclosingMention literal.nearestNamed

theorem addLine_eq (scope : Scope) (path : Path) (literal : Name) (t : Tally) (number : Nat)
    (line : Bytes) :
    (scope.addLine path literal t number line).1.name = t.name ∧
      (scope.addLine path literal t number line).1.counts
        = (scope.mentionsIn t.name literal line).foldl countOne t.counts := by
  unfold addLine mentionsIn
  split
  · next h =>
    rw [h]
    exact ⟨rfl, rfl⟩
  · next h =>
    rw [h]
    exact ⟨rfl, rfl⟩

theorem addLines_eq (scope : Scope) (path : Path) (literal : Name) (t : Tally) (number : Nat)
    (lines : List Bytes) :
    (scope.addLines path literal t number lines).1.name = t.name ∧
      (scope.addLines path literal t number lines).1.counts
        = (lines.flatMap (scope.mentionsIn t.name literal)).foldl countOne t.counts := by
  induction lines generalizing t number with
  | nil => exact ⟨rfl, rfl⟩
  | cons line lines ih =>
    obtain ⟨hname, hcounts⟩ := scope.addLine_eq path literal t number line
    obtain ⟨hname', hcounts'⟩ := ih (scope.addLine path literal t number line).1 (number + 1)
    rw [hname] at hname' hcounts'
    rw [hcounts] at hcounts'
    refine ⟨hname', ?_⟩
    rw [List.flatMap_cons, List.foldl_append]
    exact hcounts'

theorem addEnclosing_eq (t : Tally) :
    (addEnclosing t).name = t.name ∧
      (addEnclosing t).counts = (enclosingMention t.name).foldl countOne t.counts := by
  unfold addEnclosing enclosingMention
  split
  · exact ⟨rfl, rfl⟩
  · exact ⟨rfl, rfl⟩

theorem tally_name (scope : Scope) (path : Path) (literal : Name) (content : Bytes) :
    (scope.tally path literal content).1.name = literal.nearestNamed :=
  ((addEnclosing_eq _).1).trans (scope.addLines_eq path literal _ 1 _).1

theorem tally_counts (scope : Scope) (path : Path) (literal : Name) (content : Bytes) :
    (scope.tally path literal content).1.counts
      = (scope.mentions literal content).foldl countOne SortedMap.empty := by
  obtain ⟨hname, hcounts⟩ := scope.addLines_eq path literal
    ⟨literal.nearestNamed, SortedMap.empty, 0⟩ 1 (cut lineFeed content)
  have htally := (addEnclosing_eq (scope.addLines path literal
    ⟨literal.nearestNamed, SortedMap.empty, 0⟩ 1 (cut lineFeed content)).1).2
  rw [hname, hcounts] at htally
  rw [mentions, List.foldl_append]
  exact htally

/-- The count of a name is how often the file mentions it. -/
theorem find?_tally (scope : Scope) (path : Path) (literal : Name) (content : Bytes) (t : Name) :
    (scope.tally path literal content).1.counts.find? t =
      if (scope.mentions literal content).count t = 0 then none
      else some (UInt32.ofNat ((scope.mentions literal content).count t)) := by
  rw [tally_counts, find?_foldl_countOne]
  simp

/-! ## §3 A file mentions fewer names than it has bytes -/

theorem sum_length_cut_le (sep : UInt8) (s : Bytes) :
    ((cut sep s).map List.length).sum ≤ s.length := by
  induction s with
  | nil => simp [cut]
  | cons c s ih =>
    unfold cut
    split
    · simp only [List.map_cons, List.sum_cons, List.length_nil, List.length_cons]
      omega
    · split
      · simp
      · next piece rest hcut =>
        rw [hcut] at ih
        simp only [List.map_cons, List.sum_cons, List.length_cons] at ih ⊢
        omega

theorem length_mentionsIn_le (scope : Scope) (this literal : Name) (line : Bytes) :
    (scope.mentionsIn this literal line).length ≤ line.length - 1 := by
  unfold mentionsIn
  split
  · next text h =>
    have hkeys := Reference.length_keys_inLine_lt text
    have hmap := List.length_filterMap_le (scope.dependency? this literal)
      (Reference.inLine text).keys
    have htext := Utf8.length_decode_le h
    rw [dependenciesIn]
    omega
  · simp

theorem sum_pred_le (ns : List Nat) : (ns.map (· - 1)).sum ≤ ns.sum - 1 := by
  induction ns with
  | nil => simp
  | cons n ns ih =>
    simp only [List.map_cons, List.sum_cons]
    cases ns with
    | nil => simp
    | cons m ns => omega

theorem length_mentions_le (scope : Scope) (literal : Name) (content : Bytes) :
    (scope.mentions literal content).length ≤ content.length - 1 + 1 := by
  have hlines : ∀ lines : List Bytes,
      (lines.flatMap (scope.mentionsIn literal.nearestNamed literal)).length
        ≤ (lines.map List.length).sum - 1 := by
    intro lines
    refine Nat.le_trans ?_ (sum_pred_le _)
    rw [List.length_flatMap, List.map_map]
    induction lines with
    | nil => simp
    | cons line lines ih =>
      have hline := scope.length_mentionsIn_le literal.nearestNamed literal line
      simp only [List.map_cons, List.sum_cons, Function.comp_apply]
      omega
  have hcut := hlines (cut lineFeed content)
  have hsum := sum_length_cut_le lineFeed content
  have hlast : (enclosingMention literal.nearestNamed).length ≤ 1 := by
    unfold enclosingMention
    split <;> simp
  rw [mentions, List.length_append]
  omega

/-- A file shorter than 2^32 bytes mentions too few names for a count to wrap around. -/
theorem length_mentions_lt (scope : Scope) (literal : Name)
    (h : content.length < UInt32.size) : (scope.mentions literal content).length < UInt32.size := by
  have := scope.length_mentions_le literal content
  have hsize : 1 < UInt32.size := by decide
  omega

end Scope

end ClassGraph
