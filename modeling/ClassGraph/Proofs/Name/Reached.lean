/-
ClassGraph.Proofs.Name.Reached — every class file that a walk reaches has a
name.

A class file is told by the ending of its name and by there being something
before it. So where the names on the way down from the root are text, what
lies below the root is text as well, it ends as it has to, and what precedes
the ending holds more than separators: `exists_ofPath?_pathBelow`. The root
itself need not be text.
-/
import ClassGraph.Proofs.Name.Agreement
import ClassGraph.Proofs.Storage.Reach

namespace ClassGraph

/-! ## §1 Names that are text -/

theorem Utf8.lenient_encode (s : Text) : lenient (encode s) = s := by
  induction s with
  | nil => simp [encode, lenient]
  | cons c s ih =>
    obtain ⟨b, tail, hb, hread⟩ := readChar_encodeChar c (encode s)
    have hcons : encode (c :: s) = b :: (tail ++ encode s) := by
      simp only [encode, List.flatMap_cons, hb, List.cons_append]
    rw [hcons, lenient]
    split
    · next h =>
      rw [hread] at h
      cases h
    · next h =>
      rw [hread] at h
      cases h
    · next h =>
      rw [hread] at h
      cases h
      rw [ih]

namespace Path

theorem ofText_append (s t : Text) : ofText (s ++ t) = ofText s ++ ofText t := List.flatMap_append

theorem slash_mem_ofText {s : Text} (h : '/' ∈ s) : slash ∈ ofText s := by
  have hbyte : slash ∈ Utf8.encodeChar '/' := by decide
  exact List.mem_flatMap.2 ⟨'/', h, hbyte⟩

theorem ofText_join (texts : List Text) :
    ofText (join ['/'] texts) = join [slash] (texts.map ofText) := by
  induction texts with
  | nil => rfl
  | cons text rest ih =>
    by_cases hr : rest = []
    · subst hr
      rfl
    · have hslash : ofText ['/'] = [slash] := by decide
      rw [join_cons hr, ofText_append, ofText_append, hslash, ih, List.map_cons,
        join_cons (by simpa using hr)]

end Path

/-! ## §2 Class files -/

theorem Name.isSourceFile_iff {fileName : Text} :
    isSourceFile fileName = true ↔ ∃ stem, stem ≠ [] ∧ fileName = stem ++ sourceEnding := by
  simp only [isSourceFile, Bool.and_eq_true, decide_eq_true_eq, List.isSuffixOf_iff_suffix]
  constructor
  · rintro ⟨hlong, stem, rfl⟩
    refine ⟨stem, ?_, rfl⟩
    rintro rfl
    simp at hlong
  · rintro ⟨stem, hne, rfl⟩
    have hpos := List.length_pos_iff.2 hne
    refine ⟨?_, stem, rfl⟩
    rw [List.length_append]
    omega

/-- Something precedes the ending of a class file that is more than separators. -/
theorem Name.ofStem_ne_nil {dirs : List Text} {stem : Text} (hne : stem ≠ [])
    (hslash : ∀ text ∈ dirs ++ [stem], '/' ∉ text) :
    ofStem (join ['/'] (dirs ++ [stem])) ≠ [] := by
  rw [ofStem, cut_join (by simp) hslash]
  have hstem : stem ∈ (dirs ++ [stem]).filter fun s => !s.isEmpty :=
    List.mem_filter.2 ⟨by simp, by simpa using hne⟩
  refine join_ne_nil (List.ne_nil_of_mem hstem) fun part hpart => ?_
  simpa using (List.mem_filter.1 hpart).2

/-- Below a place, every class file has text for its name and for those of its directories. -/
def Storage.IsTextBelow (s : Storage) (place : Place) : Prop :=
  ∀ segments ∈ s.filesBelow place, Walk.isSource (segments.getLastD []) = true →
    ∃ texts : List Text, segments = texts.map Path.ofText

namespace Walk

variable {root : Path} {texts : List Text}

/-- Segments below a root are had back from the path that they lead to. -/
theorem below?_pathBelow {segments : List Segment} (hroot : root ≠ [])
    (hne : segments ≠ []) (hnames : ∀ name ∈ segments, Path.isName name = true) :
    Path.below? root (pathBelow root segments) = some (join [Path.slash] segments) := by
  have hslash : ∀ name ∈ segments, Path.slash ∉ name := fun name hn =>
    Path.slash_not_mem_of_isName (hnames name hn)
  have hplain : Path.IsPlain (join [Path.slash] segments) := by
    intro name hname
    rw [cut_join hne hslash] at hname
    exact Path.isIdle_of_isName (hnames name hname)
  have hparts : ∀ name ∈ segments, name ≠ [] ∧ Path.slash ∉ name := fun name hn =>
    ⟨Path.ne_nil_of_isName (hnames name hn), hslash name hn⟩
  rw [Path.pathBelow_eq_extend hne hparts, Path.below?_extend hroot hplain]

/-- A class file whose place below the root is text has a name. -/
theorem exists_ofPath?_pathBelow (hroot : root ≠ [])
    (hnames : ∀ name ∈ texts.map Path.ofText, Path.isName name = true)
    (hsource : isSource ((texts.map Path.ofText).getLastD []) = true) :
    ∃ literal, Name.ofPath? root (pathBelow root (texts.map Path.ofText)) = .ok literal := by
  rcases List.eq_nil_or_concat' texts with rfl | ⟨dirs, last, rfl⟩
  · have hnone : isSource [] = false := by decide +kernel
    exact absurd hsource (by simp [hnone])
  · have hlast : Name.isSourceFile last = true := by
      rw [List.map_append, List.map_singleton, List.getLastD_concat] at hsource
      rw [← Utf8.lenient_encode last]
      exact hsource
    obtain ⟨stem, hstem, rfl⟩ := Name.isSourceFile_iff.1 hlast
    have hslash : ∀ text ∈ dirs ++ [stem ++ Name.sourceEnding], '/' ∉ text :=
      fun text htext hmem => Path.slash_not_mem_of_isName
        (hnames _ (List.mem_map_of_mem htext)) (Path.slash_mem_ofText hmem)
    have hstems : ∀ text ∈ dirs ++ [stem], '/' ∉ text := by
      simpa [or_imp, forall_and, Name.sourceEnding] using hslash
    have hbelow := below?_pathBelow hroot (by simp) hnames
    rw [← Path.ofText_join, ← join_append_last] at hbelow
    exact ⟨_, Name.ofPath?_eq_ok.2 ⟨_, join ['/'] (dirs ++ [stem]), hbelow, Utf8.decode_encode _,
      rfl, Name.ofStem_ne_nil hstem hstems⟩⟩

end Walk

end ClassGraph
