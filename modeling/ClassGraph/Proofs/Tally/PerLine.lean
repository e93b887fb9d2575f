/-
ClassGraph.Proofs.Tally.PerLine — how much one line adds to a count.

A line counts each of its references once, and references are told apart by
their bodies. The body of a generic class may end in a type variable that is
no reference (`Box<TT` of `LBox<TT;>;`), so one line can hold two bodies of
one class and count it twice. Every count is a total of bodies
(`countedByBody_of_counted`); that is the number of lines that refer to the
class unless some line holds two bodies of it, and of two such bodies one
holds a bracket (`exists_bracket_of_two`).
-/
import ClassGraph.Proofs.Steps
import ClassGraph.Proofs.Tally.Share

namespace ClassGraph

/-! ## §1 Bodies of one class -/

namespace Name

variable {body other : Text}

/-- A body without brackets is had back from the class that it names. -/
theorem map_slash_ofDescriptor (hdot : '.' ∉ body) (hbracket : '<' ∉ body) :
    ((ofDescriptor body).map fun c => if c = '.' then '/' else c) = body := by
  have hwhole : body.takeWhile (· != '<') = body :=
    takeWhile_of_forall (ne_of_avoiding hbracket)
  have hback : ∀ c ∈ body, (if (if c = '/' then '.' else c) = '.' then '/'
      else (if c = '/' then '.' else c)) = id c := by
    intro c hc
    have hne : c ≠ '.' := fun e => hdot (e ▸ hc)
    by_cases hslash : c = '/'
    · simp [hslash]
    · simp [hslash, hne]
  rw [ofDescriptor, hwhole, List.map_map]
  exact (List.map_congr_left hback).trans (List.map_id body)

/-- Of two bodies that name one class, one holds a bracket. -/
theorem bracket_mem_of_ne (hdot : '.' ∉ body) (hdot' : '.' ∉ other) (hne : body ≠ other)
    (h : ofDescriptor body = ofDescriptor other) : '<' ∈ body ∨ '<' ∈ other := by
  refine Classical.byContradiction fun hnone => hne ?_
  obtain ⟨hbody, hother⟩ := not_or.1 hnone
  rw [← map_slash_ofDescriptor hdot hbody, h, map_slash_ofDescriptor hdot' hother]

end Name

/-! ## §2 Numbers of lines and of what they add -/

/-- The positive numbers of a list are no more than its sum, and as many where none exceeds one. -/
theorem countP_pos_le_sum (ns : List Nat) :
    ns.countP (0 < ·) ≤ ns.sum ∧ (ns.countP (0 < ·) = ns.sum ↔ ∀ n ∈ ns, n ≤ 1) := by
  induction ns with
  | nil => simp
  | cons n ns ih =>
    obtain ⟨hle, heq⟩ := ih
    have hcount : (n :: ns).countP (0 < ·) = ns.countP (0 < ·) + if 0 < n then 1 else 0 := by
      simp [List.countP_cons]
    rw [hcount, List.sum_cons, List.forall_mem_cons, ← heq]
    split
    · omega
    · omega

namespace Scope

variable {scope : Scope} {contents : Contents} {file : Path} {literal s t : Name}
  {content line : Bytes} {tally : Tally}

/-! ## §3 What a line adds -/

/-- The number of lines of a file of the class `s` with a reference that counts to the class `t`. -/
def linesTo (scope : Scope) (s t : Name) (content : Bytes) : Nat :=
  (cut lineFeed content).countP fun line => 0 < scope.referencesIn s t line

/-- A line that counts a class twice holds a body of it with a bracket. -/
theorem exists_bracket_of_two (h : 2 ≤ scope.referencesIn s t line) :
    ∃ text, Utf8.decode line = .ok text ∧ ∃ body ∈ (Reference.inLine text).keys,
      scope.refersTo s t body = true ∧ '<' ∈ body := by
  unfold referencesIn at h
  cases hline : Utf8.decode line with
  | error cause =>
    rw [hline] at h
    simp at h
  | ok text =>
    rw [hline] at h
    simp only [List.countP_eq_length_filter] at h
    have hnodup := (SortedMap.nodup_keys (Reference.inLine text)).filter (scope.refersTo s t)
    have hbody : ∀ body ∈ (Reference.inLine text).keys.filter (scope.refersTo s t),
        (body ∈ (Reference.inLine text).keys ∧ scope.refersTo s t body = true) ∧ '.' ∉ body := by
      intro body hmem
      have hkey := (List.mem_filter.1 hmem).1
      exact ⟨List.mem_filter.1 hmem, Reference.not_mem_of_mem_inLine (by decide) hkey⟩
    -- the first two of the bodies differ and name the same class
    match hbodies : (Reference.inLine text).keys.filter (scope.refersTo s t) with
    | [] | [_] =>
      rw [hbodies] at h
      simp at h
    | body :: other :: rest =>
      rw [hbodies] at hbody hnodup
      have hne : body ≠ other := fun e => by simp [e] at hnodup
      obtain ⟨⟨hkey, hrefers⟩, hdot⟩ := hbody body (by simp)
      obtain ⟨⟨hkey', hrefers'⟩, hdot'⟩ := hbody other (by simp)
      have hname := (eq_ofDescriptor_of_refersTo hrefers).symm.trans
        (eq_ofDescriptor_of_refersTo hrefers')
      rcases Name.bracket_mem_of_ne hdot hdot' hne hname with hm | hm
      · exact ⟨text, rfl, body, hkey, hrefers, hm⟩
      · exact ⟨text, rfl, other, hkey', hrefers', hm⟩

/-! ## §4 The counts of a file -/

/-- What the count of the class `t` is in the file of the class `literal`. -/
structure CountedByBody (scope : Scope) (literal : Name) (content : Bytes) (counts : Counts)
    (t : Name) : Prop where
  /-- The count is the total of bodies over all lines, and one more for the class around a nested
  one. -/
  count : let n := ((cut lineFeed content).map (scope.referencesIn literal.nearestNamed t)).sum
      + if literal.nearestNamed.isInner = true ∧ t = literal.nearestNamed.outer then 1 else 0
    counts.find? t = (if n = 0 then none else some (UInt32.ofNat n)) ∧
      (content.length < UInt32.size → n < UInt32.size)
  /-- The total is no less than the number of lines that refer to the class. -/
  lines_le : scope.linesTo literal.nearestNamed t content
    ≤ ((cut lineFeed content).map (scope.referencesIn literal.nearestNamed t)).sum
  /-- It is that number where no line holds two bodies of the class. -/
  lines_eq_iff : scope.linesTo literal.nearestNamed t content
      = ((cut lineFeed content).map (scope.referencesIn literal.nearestNamed t)).sum ↔
    ∀ line ∈ cut lineFeed content, scope.referencesIn literal.nearestNamed t line ≤ 1
  /-- Where a line holds two, it holds one with a bracket. -/
  bracket : ∀ line, 2 ≤ scope.referencesIn literal.nearestNamed t line →
    ∃ text, Utf8.decode line = .ok text ∧ ∃ body ∈ (Reference.inLine text).keys,
      scope.refersTo literal.nearestNamed t body = true ∧ '<' ∈ body

theorem countedByBody_tally (scope : Scope) (path : Path) (literal t : Name) (content : Bytes) :
    scope.CountedByBody literal content (scope.tally path literal content).1.counts t := by
  have hlines := countP_pos_le_sum
    ((cut lineFeed content).map (scope.referencesIn literal.nearestNamed t))
  rw [List.countP_map] at hlines
  refine ⟨?_, hlines.1, ?_, fun line => exists_bracket_of_two⟩
  · simp only [← count_mentions]
    exact ⟨scope.find?_tally path literal content t, fun hshort =>
      Nat.lt_of_le_of_lt List.count_le_length (scope.length_mentions_lt literal hshort)⟩
  · exact hlines.2.trans List.forall_mem_map

/-- **A count is a total of bodies**: in a file that is counted, a class is counted once for each
body of it on each line, and once more where it is the class around a nested one. That is once for
each line that refers to it unless a line holds two of its bodies, one of them with a bracket. -/
theorem countedByBody_of_counted (h : (scope.outcome contents file).1 = .counted tally) (t : Name) :
    ∃ literal content, Name.ofPath? scope.root file = .ok literal ∧
      contents file = .ok content ∧ tally.name = literal.nearestNamed ∧
      scope.CountedByBody literal content tally.counts t := by
  obtain ⟨literal, content, hname, hread, -, hfolded, hcounts⟩ := counts_of_counted h
  refine ⟨literal, content, hname, hread, hfolded, ?_⟩
  rw [hcounts]
  exact scope.countedByBody_tally file literal t content

/-- A line with two bodies of the class `B`, one of them with a type variable. -/
def twoBodies : Bytes := [0x4C, 0x42, 0x3B, 0x4C, 0x42, 0x3C, 0x54, 0x3B]

/-- Files below a root, with nothing left out but generated classes. -/
def openScope : Scope := ⟨[0x2F, 0x61], none, none, Markers.usual⟩

/-- The path of the file of `A`. -/
def plainFile : Path := [0x2F, 0x61, 0x2F, 0x41, 0x2E, 0x73, 0x6D, 0x61, 0x6C, 0x69]

theorem twoBodies_counted : ∃ tally,
    (openScope.outcome (fun _ => .ok twoBodies) plainFile).1 = .counted tally ∧
    tally.name = ['A'] ∧ tally.counts.find? ['B'] = some 2 := by
  have hcounted : (openScope.outcome (fun _ => .ok twoBodies) plainFile).1.counts?.map
      (fun counted => (counted.1, counted.2.find? ['B'])) = some (['A'], some 2) := by
    decide +kernel
  cases houtcome : (openScope.outcome (fun _ => .ok twoBodies) plainFile).1 with
  | counted tally =>
    rw [houtcome] at hcounted
    obtain ⟨hname, hcount⟩ := Prod.mk.inj (Option.some.inj hcounted)
    exact ⟨tally, rfl, hname, hcount⟩
  | excluded name =>
    rw [houtcome] at hcounted
    cases hcounted
  | failed =>
    rw [houtcome] at hcounted
    cases hcounted

/-- A single line counts a class twice. -/
theorem line_counted_twice : ¬ ∀ tally,
    (openScope.outcome (fun _ => .ok twoBodies) plainFile).1 = .counted tally →
    ∀ t, ((tally.counts.find? t).getD 0).toNat = openScope.linesTo ['A'] t twoBodies
      + if tally.name.isInner = true ∧ t = tally.name.outer then 1 else 0 := by
  intro hclaim
  obtain ⟨tally, houtcome, hname, hcount⟩ := twoBodies_counted
  have htwice := hclaim tally houtcome ['B']
  have hline : openScope.linesTo ['A'] ['B'] twoBodies = 1 := by decide +kernel
  have hplain : Name.isInner ['A'] = false := by decide
  rw [hcount, hline, hname, hplain] at htwice
  exact absurd htwice (by decide)

theorem countedByBody_twoBodies : ∃ tally,
    (openScope.outcome (fun _ => .ok twoBodies) plainFile).1 = .counted tally ∧
    openScope.CountedByBody ['A'] twoBodies tally.counts ['B'] := by
  obtain ⟨tally, houtcome, -, -⟩ := twoBodies_counted
  obtain ⟨literal, content, hname, hread, -, hcounted⟩ := countedByBody_of_counted houtcome ['B']
  have hfile : Name.ofPath? openScope.root plainFile = .ok ['A'] :=
    eq_ok_of_toOption (by decide +kernel)
  rw [hfile] at hname
  cases hname
  cases hread
  exact ⟨tally, houtcome, hcounted⟩

end Scope

end ClassGraph
