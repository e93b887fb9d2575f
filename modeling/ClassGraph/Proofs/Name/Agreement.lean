/-
ClassGraph.Proofs.Name.Agreement — the file of a class and a reference to it
spell one name.

The one spelling is cut out of a path, the other out of a line. For a class
whose name is made of plain parts both give the parts between dots, and those
tell the parts: `file_agrees_with_descriptor`. So a reference names the class
that the file of that class counts for, and a file knows references to its
own class.
-/
import ClassGraph.Proofs.Name.WellFormed
import ClassGraph.Proofs.Path.Below
import ClassGraph.Proofs.Reference.Reads
import ClassGraph.Proofs.Tally.Share

namespace ClassGraph.Name

variable {c : Char} {part : Text} {parts others : List Text} {root : Path}

/-! ## §1 Plain parts -/

/-- Whether a character may stand in a part of a name. -/
def isPartChar (c : Char) : Bool := c.isAlphanum || c == '_' || c == '$'

/-- Whether a text is a plain part of a name, of a package or of a class. -/
def isPart (s : Text) : Bool := !s.isEmpty && s.all isPartChar

theorem ne_nil_of_isPart (h : isPart part = true) : part ≠ [] := by
  simp only [isPart, Bool.and_eq_true, Bool.not_eq_true', List.isEmpty_eq_false_iff] at h
  exact h.1

theorem isPartChar_of_mem (h : isPart part = true) (hc : c ∈ part) : isPartChar c = true := by
  simp only [isPart, Bool.and_eq_true, List.all_eq_true] at h
  exact h.2 c hc

theorem not_mem_of_isPart (hc : isPartChar c = false) (h : isPart part = true) : c ∉ part := by
  intro hm
  rw [isPartChar_of_mem h hm] at hc
  cases hc

theorem isNameChar_of_isPartChar (h : isPartChar c = true) : Reference.isNameChar c = true := by
  simp only [isPartChar, Reference.isNameChar, Bool.or_eq_true] at h ⊢
  rcases h with (h | h) | h
  · exact .inl (.inl (.inl h))
  · exact .inl (.inl (.inr h))
  · exact .inr h

theorem join_ne_nil {sep : Text} (hne : parts ≠ []) (h : ∀ part ∈ parts, part ≠ []) :
    join sep parts ≠ [] := by
  obtain ⟨first, rest, rfl⟩ := List.exists_cons_of_ne_nil hne
  obtain ⟨c, s, rfl⟩ := List.exists_cons_of_ne_nil (h first (List.mem_cons_self ..))
  have hmem : c ∈ join sep ((c :: s) :: rest) :=
    mem_join_of_mem (List.mem_cons_self ..) (List.mem_cons_self ..) sep
  exact List.ne_nil_of_mem hmem

/-- Plain parts between slashes are the body of a reference without type arguments. -/
theorem isName_join (hne : parts ≠ []) (h : ∀ part ∈ parts, isPart part = true) :
    Reference.isName (join ['/'] parts) = true := by
  have hnil : join ['/'] parts ≠ [] := join_ne_nil hne fun part hp => ne_nil_of_isPart (h part hp)
  simp only [Reference.isName, Bool.and_eq_true, Bool.not_eq_true', List.isEmpty_eq_false_iff,
    List.all_eq_true]
  refine ⟨hnil, fun c hc => ?_⟩
  rcases mem_join hc with rfl | ⟨part, hp, hm⟩
  · decide
  · exact isNameChar_of_isPartChar (isPartChar_of_mem (h part hp) hm)

/-! ## §2 The file of a class -/

/-- Where the file of a class lies below a root. -/
def filePath (root : Path) (parts : List Text) : Path :=
  root.extend (Path.ofText (join ['/'] parts ++ sourceEnding))

theorem ofStem_join (hne : parts ≠ []) (h : ∀ part ∈ parts, isPart part = true) :
    ofStem (join ['/'] parts) = join ['.'] parts := by
  have hslash : ∀ part ∈ parts, '/' ∉ part := fun part hp =>
    not_mem_of_isPart (by decide) (h part hp)
  have hkeep : parts.filter (fun s => !s.isEmpty) = parts := by
    rw [List.filter_eq_self]
    intro part hp
    simp [ne_nil_of_isPart (h part hp)]
  rw [ofStem, cut_join hne hslash, hkeep]

/-- The path of a file below its root is cut into its directories and its name. -/
theorem cut_file {dirs : List Text} {stem : Text}
    (h : ∀ part ∈ dirs ++ [stem], isPart part = true) :
    cut '/' (join ['/'] (dirs ++ [stem]) ++ sourceEnding) = dirs ++ [stem ++ sourceEnding] := by
  have hslash : ∀ part ∈ dirs ++ [stem], '/' ∉ part := fun part hp =>
    not_mem_of_isPart (by decide) (h part hp)
  rw [join_append_last]
  refine cut_join (by simp) fun part hp => ?_
  rcases List.mem_append.1 hp with hp | hp
  · exact hslash part (List.mem_append_left _ hp)
  · have hstem := hslash stem (by simp)
    rw [List.mem_singleton.1 hp]
    simp [hstem, sourceEnding]

/-- No segment of the path of a file below its root is idle. -/
theorem isPlain_file (hne : parts ≠ []) (h : ∀ part ∈ parts, isPart part = true) :
    Path.IsPlain (Path.ofText (join ['/'] parts ++ sourceEnding)) := by
  obtain ⟨dirs, stem, rfl⟩ : ∃ dirs stem, parts = dirs ++ [stem] :=
    ⟨parts.dropLast, parts.getLast hne, (List.dropLast_append_getLast hne).symm⟩
  intro s hs
  rw [Path.cut_ofText, cut_file h] at hs
  obtain ⟨part, hp, rfl⟩ := List.mem_map.1 hs
  rcases List.mem_append.1 hp with hp | hp
  · have hpart := h part (List.mem_append_left _ hp)
    refine Path.isIdle_ofText (ne_nil_of_isPart hpart) ?_
    rintro rfl
    exact absurd hpart (by decide)
  · rw [List.mem_singleton.1 hp]
    refine Path.isIdle_ofText (by simp [sourceEnding]) fun e => ?_
    have hlen := congrArg List.length e
    simp [sourceEnding] at hlen

theorem ofPath?_filePath (hroot : root.isAbsolute = true) (hne : parts ≠ [])
    (h : ∀ part ∈ parts, isPart part = true) :
    ofPath? root (filePath root parts) = .ok (join ['.'] parts) :=
  ofPath?_eq_ok.2 ⟨_, join ['/'] parts,
    Path.below?_extend (Path.ne_nil_of_isAbsolute hroot) (isPlain_file hne h),
    Utf8.decode_encode _, ofStem_join hne h,
    join_ne_nil hne fun part hp => ne_nil_of_isPart (h part hp)⟩

/-! ## §3 References to a class -/

/-- A reference to a class as it is written. -/
def descriptor (parts : List Text) : Text := 'L' :: (join ['/'] parts ++ [';'])

theorem ofDescriptor_join (hne : parts ≠ []) (h : ∀ part ∈ parts, isPart part = true) :
    ofDescriptor (join ['/'] parts) = join ['.'] parts := by
  have hwhole : (join ['/'] parts).takeWhile (· != '<') = join ['/'] parts :=
    takeWhile_of_forall fun c hc => by
      have := Reference.not_mem_of_isName (c := '<') (by decide) (isName_join hne h)
      simpa using fun (e : c = '<') => this (e ▸ hc)
  rw [ofDescriptor_eq_join, hwhole, cut_join hne fun part hp =>
    not_mem_of_isPart (by decide) (h part hp)]

theorem inLine_descriptor (hne : parts ≠ []) (h : ∀ part ∈ parts, isPart part = true) :
    (Reference.inLine (descriptor parts)).keys = [join ['/'] parts] := by
  have hname := isName_join hne h
  have hsight : Reference.sightings (descriptor parts) = [.reference (join ['/'] parts)] := by
    have hscan : Reference.sightings (descriptor parts)
        = .reference (join ['/'] parts) :: Reference.scan (some Reference.maxDepth) 0 [] :=
      Reference.scan_plain (List.not_mem_nil) (Reference.isBody_of_isName hname)
        (Reference.argumentsOf?_of_isName hname)
    rw [hscan, Reference.scan_quiet List.not_mem_nil]
  rw [Reference.inLine, hsight]
  rfl

theorem classesInLine_descriptor (hne : parts ≠ []) (h : ∀ part ∈ parts, isPart part = true) :
    (Reference.classesInLine (descriptor parts)).keys = [join ['.'] parts] := by
  rw [Reference.classesInLine, inLine_descriptor hne h, List.map_singleton, ofDescriptor_join hne h]
  rfl

/-! ## §4 One name -/

/-- What counts has the name that its descriptor spells, and a name of its own. -/
theorem dependency?_eq_some {scope : Scope} {this literal t : Name} {body : Text}
    (h : scope.dependency? this literal body = some t) :
    t = ofDescriptor body ∧ t.isAnonymous = false ∧ t ≠ literal := by
  unfold Scope.dependency? at h
  simp only at h
  split at h
  · next hall =>
    cases h
    simp only [Bool.and_eq_true, Bool.not_eq_true', bne_iff_ne, ne_eq] at hall
    exact ⟨rfl, hall.1.1.1.2, hall.2⟩
  · cases h

/-- **The file of a class and a reference to it give one name**, and no other class has it. The
class that a reference counts for is the one that its own file counts for, and in that file no such
reference counts. -/
theorem file_agrees_with_descriptor (hroot : root.isAbsolute = true) (hne : parts ≠ [])
    (hparts : ∀ part ∈ parts, isPart part = true) :
    ofPath? root (filePath root parts) = .ok (join ['.'] parts) ∧
      (Reference.classesInLine (descriptor parts)).keys = [join ['.'] parts] ∧
      (∀ others, others ≠ [] → (∀ part ∈ others, isPart part = true) →
        join ['.'] others = join ['.'] parts → others = parts) ∧
      (∀ (scope : Scope) (this : Name),
        scope.dependency? this (join ['.'] parts) (join ['/'] parts) = none) ∧
      ∀ (scope : Scope) (contents : Contents) (tally : Tally) (this literal t : Name),
        scope.root = root →
        (scope.outcome contents (filePath root parts)).1 = .counted tally →
        scope.dependency? this literal (join ['/'] parts) = some t → t = tally.name := by
  have hfile := ofPath?_filePath hroot hne hparts
  have hname := ofDescriptor_join hne hparts
  have hdot : ∀ ps : List Text, (∀ part ∈ ps, isPart part = true) → ∀ part ∈ ps, '.' ∉ part :=
    fun ps h part hp => not_mem_of_isPart (by decide) (h part hp)
  refine ⟨hfile, classesInLine_descriptor hne hparts, ?_, ?_, ?_⟩
  · intro others ho hothers he
    exact join_injective ho (hdot others hothers) hne (hdot parts hparts) he
  · intro scope this
    cases hd : scope.dependency? this (join ['.'] parts) (join ['/'] parts) with
    | none => rfl
    | some t =>
      obtain ⟨ht, -, hself⟩ := dependency?_eq_some hd
      exact absurd (ht.trans hname) hself
  · rintro scope contents tally this literal t rfl hcounted hd
    obtain ⟨ht, hanon, -⟩ := dependency?_eq_some hd
    obtain ⟨own, content, hown, -, -, htally⟩ := Scope.outcome_eq_counted hcounted
    rw [hfile] at hown
    rw [htally, ← Except.ok.inj hown, ← hname, ← ht]
    -- a name that folding changes is anonymous, and would not count
    by_contra hfold
    have := isAnonymous_of_nearestNamed_ne fun e => hfold e.symm
    rw [hanon] at this
    cases this

/-- A root spelled with idle segments, and a class whose name holds the letter of references. -/
theorem file_agrees_with_descriptor_idle_root :
    ofPath? (Path.ofText "/a/./b/".toList) (Path.ofText "/a/./b/pL/LA$$9.smali".toList)
        = .ok "pL.LA$$9".toList ∧
      (Reference.classesInLine "LpL/LA$$9;".toList).keys = ["pL.LA$$9".toList] := by
  have hroot : (Path.ofText "/a/./b/".toList).isAbsolute = true := by decide
  have hparts : ∀ part ∈ ["pL".toList, "LA$$9".toList], isPart part = true := by decide
  obtain ⟨hfile, hline, -⟩ := file_agrees_with_descriptor hroot (by decide) hparts
  exact ⟨hfile, hline⟩

end ClassGraph.Name
