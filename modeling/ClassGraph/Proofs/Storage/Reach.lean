/-
ClassGraph.Proofs.Storage.Reach — reaching an entry by the path of its place.

The segments of a place are the names of the directories above an entry and
its own. Where they are names at all, the path that is written for the place
leads back to it, unless the path is one that is never followed, for its
length or a zero byte (`pathFault?`): no other entry of the tree matters to
that. The main statements:

  * `lookUp_pathOf`     — where the path of a place leads;
  * `pathBelow_pathOf`  — descending from a place by names;
  * `at?_of_find`       — what is found lies at its place.
-/
import Mathlib.Data.List.Basic
import Mathlib.Data.List.Induction
import ClassGraph.Proofs.Path.Below
import ClassGraph.Proofs.Storage.Following
import ClassGraph.Proofs.Walk.Files

namespace ClassGraph

/-- Whether a segment can be the name of an entry: it holds no slash, and it is neither idle nor
the parent segment. -/
def Path.isName (s : Segment) : Bool := !isIdle s && s != dotDot && !s.contains slash

namespace Path

variable {name : Segment}

theorem isIdle_of_isName (h : isName name = true) : isIdle name = false := by
  simp only [isName, Bool.and_eq_true, Bool.not_eq_true'] at h
  exact h.1.1

theorem ne_dotDot_of_isName (h : isName name = true) : name ≠ dotDot := by
  simp only [isName, Bool.and_eq_true, bne_iff_ne, ne_eq] at h
  exact h.1.2

theorem slash_not_mem_of_isName (h : isName name = true) : slash ∉ name := by
  simp only [isName, Bool.and_eq_true, Bool.not_eq_true', List.contains_eq_mem,
    decide_eq_false_iff_not] at h
  exact h.2

theorem ne_nil_of_isName (h : isName name = true) : name ≠ [] := by
  rintro rfl
  cases h

end Path

namespace Storage

variable {s : Storage} {here base place : Place} {segments : List Segment} {e : Entry} {p : Path}

/-- Whether every entry of a tree has a name, and so has all that it lies in. -/
def isNamed (s : Storage) : Bool := s.entries.keys.all fun place => place.all Path.isName

theorem isName_of_at? (hnamed : s.isNamed = true) (h : s.at? place = some e) :
    ∀ name ∈ place, Path.isName name = true := by
  by_cases htop : place = []
  · subst htop
    simp
  · rw [at?, entryIn, if_neg htop] at h
    have hkey : place ∈ s.entries.keys := SortedMap.mem_keys_iff.2 ⟨e, h⟩
    exact List.all_eq_true.1 (List.all_eq_true.1 hnamed place hkey)

/-- What leads down to a file are names. -/
theorem isName_of_mem_filesBelow (hnamed : s.isNamed = true) (h : segments ∈ s.filesBelow place) :
    segments ≠ [] ∧ ∀ name ∈ segments, Path.isName name = true := by
  obtain ⟨hne, content, runnable, hfile⟩ := mem_filesBelow.1 h
  exact ⟨hne, fun name hname =>
    isName_of_at? hnamed hfile name (List.mem_append_right _ hname)⟩

/-! ## §1 Down from a directory -/

/-- What an entry lies in is a directory, however far above. -/
theorem directory_above (h : s.at? (base ++ segments) = some e) (hne : segments ≠ []) :
    s.at? base = some .directory := by
  induction segments using List.reverseRecOn generalizing e with
  | nil => exact absurd rfl hne
  | append_singleton above name ih =>
    rw [← List.append_assoc] at h
    have hparent : s.at? (base ++ above) = some .directory :=
      s.grounded _ name (by rw [← at?, h]; simp)
    by_cases habove : above = []
    · rwa [habove, List.append_nil] at hparent
    · exact ih hparent habove

/-- Whether a name is longer than names may be. -/
def isLong (name : Segment) : Bool := maxSegment < name.length

/-- Names lead from a directory to the entry below it. -/
theorem resolve_down (hentry : s.at? (base ++ segments) = some e) (hlink : ∀ t, e ≠ .link t)
    (hnames : ∀ name ∈ segments, Path.isName name = true) (follow : Bool) (links : Nat) :
    s.resolve follow links base segments =
      if segments.any isLong then .error .nameTooLong
      else .ok (.existing (base ++ segments) e) := by
  induction segments generalizing base with
  | nil =>
    rw [List.append_nil] at hentry ⊢
    exact resolve_nil hentry
  | cons name rest ih =>
    have hname := hnames name (List.mem_cons_self ..)
    have hidle : ¬ Path.isIdle name = true := by simp [Path.isIdle_of_isName hname]
    have hup := Path.ne_dotDot_of_isName hname
    have hdir := directory_above hentry (List.cons_ne_nil name rest)
    have hsplit : base ++ name :: rest = base ++ [name] ++ rest := by simp
    rw [hsplit] at hentry ⊢
    -- what lies at the next name is no link: it is the entry, or a directory above it
    obtain ⟨next, hat, hnext⟩ : ∃ next, s.at? (base ++ [name]) = some next ∧
        ∀ t, next ≠ .link t := by
      by_cases hr : rest = []
      · rw [hr, List.append_nil] at hentry
        exact ⟨e, hentry, hlink⟩
      · exact ⟨.directory, directory_above hentry hr, fun t ht => by cases ht⟩
    by_cases hlong : maxSegment < name.length
    · rw [resolve_long hdir hidle hup hlong]
      simp [hlong, isLong]
    · rw [resolve_next ⟨hdir, hidle, hup, hlong⟩ hat hnext,
        ih hentry fun n hn => hnames n (List.mem_cons_of_mem _ hn)]
      simp [isLong, hlong]

/-! ## §2 The path of a place -/

/-- Why the path of a place is not followed to its end. -/
def pathFault? (place : Place) : Option StorageFault :=
  if 0 ∈ pathOf place then some .zeroByte
  else if maxPath < (pathOf place).length then some .nameTooLong
  else if place.any isLong then some .nameTooLong
  else none

/-- The path of a place leads there, if it is followed to its end. -/
theorem lookUp_pathOf (hnamed : s.isNamed = true) (hentry : s.at? place = some e)
    (hlink : ∀ t, e ≠ .link t) (here : Place) (follow : Bool) :
    s.lookUp here follow (pathOf place) =
      match pathFault? place with
      | some fault => .error fault
      | none => .ok (.existing place e) := by
  have hnames := isName_of_at? hnamed hentry
  have hcut : s.resolve follow maxLinks [] (cut Path.slash (pathOf place)) =
      if place.any isLong then .error .nameTooLong else .ok (.existing place e) := by
    have htop : s.at? [] = some .directory := rfl
    rw [pathOf, cut_cons_sep, resolve_idle htop Path.isIdle_nil]
    by_cases hp : place = []
    · subst hp
      cases htop.symm.trans hentry
      exact (resolve_idle htop Path.isIdle_nil).trans (resolve_nil htop)
    · rw [cut_join hp fun name hn => Path.slash_not_mem_of_isName (hnames name hn)]
      have hbelow : s.at? ([] ++ place) = some e := hentry
      exact resolve_down hbelow hlink hnames follow maxLinks
  unfold lookUp pathFault?
  rw [if_neg (by simp [pathOf])]
  split
  · rfl
  · split
    · rfl
    · rw [if_pos (by simp [pathOf, Path.isAbsolute]), hcut]
      split <;> rfl

theorem find_pathOf (hnamed : s.isNamed = true) (hentry : s.at? place = some e)
    (hlink : ∀ t, e ≠ .link t) (here : Place) :
    s.find here (pathOf place) =
      match pathFault? place with
      | some fault => .error fault
      | none => .ok (place, e) := by
  rw [find, lookUp_pathOf hnamed hentry hlink]
  cases pathFault? place <;> rfl

/-- Descending from a place by names is the path of the place below it. -/
theorem pathBelow_pathOf (hplace : ∀ name ∈ place, Path.isName name = true)
    (hsegments : ∀ name ∈ segments, Path.isName name = true) :
    Walk.pathBelow (pathOf place) segments = pathOf (place ++ segments) := by
  by_cases hs : segments = []
  · subst hs
    rw [List.append_nil]
    rfl
  have hparts : ∀ name ∈ segments, name ≠ [] ∧ Path.slash ∉ name := fun name hn =>
    ⟨Path.ne_nil_of_isName (hsegments name hn), Path.slash_not_mem_of_isName (hsegments name hn)⟩
  have hrelative : Path.isAbsolute (join [Path.slash] segments) = false := by
    obtain ⟨first, rest, rfl⟩ := List.exists_cons_of_ne_nil hs
    obtain ⟨hfirst, hslash⟩ := hparts first (List.mem_cons_self ..)
    by_cases hr : rest = []
    · subst hr
      simpa using Path.isAbsolute_append hfirst hslash []
    · rw [join_cons hr, List.append_assoc]
      exact Path.isAbsolute_append hfirst hslash _
  rw [Path.pathBelow_eq_extend hs hparts, Path.extend, if_neg (by simp [hrelative])]
  rcases List.eq_nil_or_concat' place with rfl | ⟨above, last, rfl⟩
  · rfl
  · have hlast := hplace last (by simp)
    obtain ⟨start, b, rfl⟩ :=
      (List.eq_nil_or_concat' last).resolve_left (Path.ne_nil_of_isName hlast)
    have hb : b ≠ Path.slash := fun hb => Path.slash_not_mem_of_isName hlast (by simp [hb])
    have hend : (pathOf (above ++ [start ++ [b]])).getLast? = some b := by
      rw [pathOf, ← join_append_last, ← List.cons_append, List.getLast?_concat]
    rw [hend, if_neg (by simp [hb, pathOf]), pathOf, pathOf, join_append (by simp) hs]
    simp

/-! ## §3 What is found -/

theorem lookUp_eq_ok {follow : Bool} {found : Found} :
    s.lookUp here follow p = .ok found ↔ p.isEmpty = false ∧ 0 ∉ p ∧ ¬ maxPath < p.length ∧
      s.resolve follow maxLinks (if Path.isAbsolute p then [] else here) (cut Path.slash p)
        = .ok found := by
  unfold lookUp
  split
  · next h => simp [h]
  · next h =>
    split
    · next h0 => simp [h0]
    · next h0 =>
      split
      · next hlong => simp [hlong]
      · next hlong => simp [h, h0, hlong]

theorem find_eq_ok :
    s.find here p = .ok (place, e) ↔ s.lookUp here true p = .ok (.existing place e) := by
  unfold find
  cases s.lookUp here true p with
  | error fault => simp
  | ok found => cases found <;> simp

theorem ne_nil_of_find (h : s.find here p = .ok (place, e)) : p ≠ [] := by
  have hne := (lookUp_eq_ok.1 (find_eq_ok.1 h)).1
  simpa using hne

theorem canonical_of_find (h : s.find here p = .ok (place, e)) :
    s.canonical here p = .ok (pathOf place) := by
  rw [canonical, h]
  rfl

theorem at?_of_find (h : s.find here p = .ok (place, e)) : s.at? place = some e :=
  at?_of_resolve (lookUp_eq_ok.1 (find_eq_ok.1 h)).2.2.2

end Storage

end ClassGraph
