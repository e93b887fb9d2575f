/-
ClassGraph.Proofs.Storage.Spared — a tree without what cannot be read.

Reading some files of a tree is refused, and some lines of the others are not
text. The tree that is spared of both has the same directories and links, no
file whose reading is refused, and an empty line for each line that is not
text (`spared`). A path leads in it to what it leads to in the whole tree,
where that is still there (`resolve_spared`, `resolve_of_spared`), and the
files below a place are those whose reading is not refused
(`filesBelow_spared`).
-/
import ClassGraph.Proofs.Storage.Reach
import ClassGraph.Tally
import ClassGraph.Analysis.Run

namespace ClassGraph

/-! ## §1 Lines that are not text -/

/-- The line, or an empty one in place of a line that is not text. -/
def mendLine (line : Bytes) : Bytes :=
  match Utf8.decode line with
  | .ok _ => line
  | .error _ => []

/-- The content with an empty line for every line that is not text. -/
def mendLines (content : Bytes) : Bytes :=
  join [Scope.lineFeed] ((cut Scope.lineFeed content).map mendLine)

theorem mem_of_mem_mendLine {line : Bytes} {b : UInt8} (h : b ∈ mendLine line) : b ∈ line := by
  unfold mendLine at h
  split at h
  · exact h
  · cases h

/-- Mending changes no line but those that are not text. -/
theorem cut_mendLines (content : Bytes) :
    cut Scope.lineFeed (mendLines content) = (cut Scope.lineFeed content).map mendLine := by
  refine cut_join (fun h => cut_ne_nil _ _ (List.map_eq_nil_iff.1 h)) fun line hline hbreak => ?_
  obtain ⟨whole, hwhole, rfl⟩ := List.mem_map.1 hline
  exact not_mem_of_mem_cut hwhole (mem_of_mem_mendLine hbreak)

/-! ## §2 What is left -/

namespace Storage

/-- What is left of an entry. -/
def spare (refusal : Refusal) (place : Place) : Entry → Option Entry
  | .file content runnable =>
    if (refusal place).isSome then none else some (.file (mendLines content) runnable)
  | .link target => some (.link target)
  | .directory => some .directory

theorem entryIn_filterMap_spare (entries : SortedMap Place Entry) (refusal : Refusal)
    (place : Place) : entryIn (entries.filterMap (spare refusal)) place
      = (entryIn entries place).bind (spare refusal place) := by
  unfold entryIn
  split
  · rfl
  · exact SortedMap.find?_filterMap (spare refusal) entries place

theorem grounded_spare (s : Storage) (refusal : Refusal) :
    Grounded (s.entries.filterMap (spare refusal)) := by
  intro parent name h
  rw [entryIn_filterMap_spare] at h ⊢
  have hentry : entryIn s.entries (parent ++ [name]) ≠ none := fun hnone => h (by rw [hnone]; rfl)
  rw [s.grounded parent name hentry]
  rfl

/-- The tree without the files that are refused, and with an empty line in the others for every
line that is not text. -/
def spared (s : Storage) (refusal : Refusal) : Storage :=
  ⟨s.entries.filterMap (spare refusal), s.grounded_spare refusal⟩

variable {s : Storage} {refusal : Refusal} {here base place : Place} {segments : List Segment}
  {e e' : Entry} {follow : Bool} {links : Nat} {p : Path}

theorem at?_spared (s : Storage) (refusal : Refusal) (place : Place) :
    (s.spared refusal).at? place = (s.at? place).bind (spare refusal place) :=
  entryIn_filterMap_spare s.entries refusal place

theorem at?_spared_directory (h : s.at? place = some .directory) (refusal : Refusal) :
    (s.spared refusal).at? place = some .directory := by
  rw [at?_spared, h]
  rfl

theorem isNamed_spared (h : s.isNamed = true) (refusal : Refusal) :
    (s.spared refusal).isNamed = true := by
  refine List.all_eq_true.2 fun place hplace => ?_
  obtain ⟨binding, hbinding, rfl⟩ := List.mem_map.1 hplace
  exact List.all_eq_true.1 h _ (SortedMap.mem_keys_filterMapIn hbinding)

/-! ## §3 Where paths lead -/

/-- Only files are changed. -/
theorem eq_of_spare (h : spare refusal place e = some e')
    (hfile : ∀ content runnable, e' ≠ .file content runnable) : e = e' := by
  cases e with
  | file content runnable =>
    rw [spare] at h
    split at h
    · cases h
    · cases h
      exact absurd rfl (hfile _ _)
  | link target =>
    cases h
    rfl
  | directory =>
    cases h
    rfl

theorem at?_of_spared (h : (s.spared refusal).at? place = some e') :
    ∃ e, s.at? place = some e ∧ spare refusal place e = some e' := by
  rw [at?_spared] at h
  exact Option.bind_eq_some_iff.1 h

theorem at?_eq_of_spared (h : (s.spared refusal).at? place = some e')
    (hfile : ∀ content runnable, e' ≠ .file content runnable) : s.at? place = some e' := by
  obtain ⟨e, hat, hspare⟩ := at?_of_spared h
  rw [hat, eq_of_spare hspare hfile]

theorem directory_of_spared (h : (s.spared refusal).at? place = some .directory) :
    s.at? place = some .directory :=
  at?_eq_of_spared h fun _ _ hfile => by cases hfile

/-- What a path leads to, it leads to when the tree is spared, if that is left. -/
theorem resolve_spared (h : s.resolve follow links base segments = .ok (.existing place e))
    (hleft : spare refusal place e = some e') :
    (s.spared refusal).resolve follow links base segments = .ok (.existing place e') := by
  have hdirectory : ∀ place, s.at? place = some .directory →
      (s.spared refusal).at? place = some .directory := fun _ hdir =>
    at?_spared_directory hdir refusal
  have hseeksIn : ∀ {base name}, s.Seeks base name → (s.spared refusal).Seeks base name :=
    fun hseeks => { hseeks with directory := hdirectory _ hseeks.directory }
  have hlinkIn : ∀ {place target}, s.at? place = some (.link target) →
      (s.spared refusal).at? place = some (.link target) := by
    intro place target hat
    rw [at?_spared, hat]
    rfl
  induction links, base, segments using resolve_induct with
  | reached hat =>
    cases h
    exact resolve_nil (by rw [at?_spared, hat, Option.bind_some, hleft])
  | idle hdir hidle ih => rw [resolve_idle (hdirectory _ hdir) hidle, ih h]
  | up hdir ih => rw [resolve_up (hdirectory _ hdir), ih h]
  | lastLink hseeks hat hlast =>
    cases h
    cases hleft
    exact resolve_link_last (hseeksIn hseeks) (hlinkIn hat) hlast
  | link hseeks hat hlast ih =>
    rw [resolve_link (hseeksIn hseeks) (hlinkIn hat) hlast]
    exact ih h
  | next hseeks hat hlink ih =>
    -- the next entry is still there, because the path goes on from it
    obtain ⟨next', hat'⟩ := exists_at?_of_resolve (ih h)
    have hlink' : ∀ target, next' ≠ .link target := by
      rintro target rfl
      have hsame := at?_eq_of_spared hat' fun _ _ hfile => by cases hfile
      exact hlink target (Option.some.inj (hat.symm.trans hsame))
    rw [resolve_next (hseeksIn hseeks) hat' hlink', ih h]
  | _ => cases h

/-- What a path leads to when the tree is spared is what is left of an entry. -/
theorem resolve_of_spared
    (h : (s.spared refusal).resolve follow links base segments = .ok (.existing place e')) :
    ∃ e, s.resolve follow links base segments = .ok (.existing place e) := by
  have hseeksIn : ∀ {base name}, (s.spared refusal).Seeks base name → s.Seeks base name :=
    fun hseeks => { hseeks with directory := directory_of_spared hseeks.directory }
  induction links, base, segments using resolve_induct with
  | reached hat' =>
    cases h
    obtain ⟨e, hat, -⟩ := at?_of_spared hat'
    exact ⟨e, resolve_nil hat⟩
  | idle hdir hidle ih =>
    rw [resolve_idle (directory_of_spared hdir) hidle]
    exact ih h
  | up hdir ih =>
    rw [resolve_up (directory_of_spared hdir)]
    exact ih h
  | lastLink hseeks hat' hlast =>
    cases h
    have hat := at?_eq_of_spared hat' fun _ _ hfile => by cases hfile
    exact ⟨_, resolve_link_last (hseeksIn hseeks) hat hlast⟩
  | link hseeks hat' hlast ih =>
    have hat := at?_eq_of_spared hat' fun _ _ hfile => by cases hfile
    rw [resolve_link (hseeksIn hseeks) hat hlast]
    exact ih h
  | next hseeks hat' hlink ih =>
    obtain ⟨next, hat, hspare⟩ := at?_of_spared hat'
    have hlink' : ∀ target, next ≠ .link target := by
      rintro target rfl
      exact hlink target (Option.some.inj hspare).symm
    rw [resolve_next (hseeksIn hseeks) hat hlink']
    exact ih h
  | _ => cases h

theorem find_spared (h : s.find here p = .ok (place, e))
    (hleft : spare refusal place e = some e') :
    (s.spared refusal).find here p = .ok (place, e') := by
  rw [find_eq_ok, lookUp_eq_ok] at h ⊢
  obtain ⟨hne, hzero, hlong, hresolve⟩ := h
  exact ⟨hne, hzero, hlong, resolve_spared hresolve hleft⟩

theorem find_of_spared (h : (s.spared refusal).find here p = .ok (place, e')) :
    ∃ e, s.find here p = .ok (place, e) := by
  rw [find_eq_ok, lookUp_eq_ok] at h
  obtain ⟨hne, hzero, hlong, hresolve⟩ := h
  obtain ⟨e, hwhole⟩ := resolve_of_spared hresolve
  exact ⟨e, find_eq_ok.2 (lookUp_eq_ok.2 ⟨hne, hzero, hlong, hwhole⟩)⟩

/-- Nothing is there that was not there. -/
theorem exists?_spared_of_false (h : s.exists? here p = false) (refusal : Refusal) :
    (s.spared refusal).exists? here p = false := by
  unfold exists? at h ⊢
  cases hfind : (s.spared refusal).find here p with
  | error fault => rfl
  | ok found =>
    obtain ⟨e, hwhole⟩ := find_of_spared hfind
    rw [hwhole] at h
    cases h

/-! ## §4 The files that are left -/

theorem filterMap_fileBelow?_spare (refusal : Refusal) (place : Place)
    (bindings : List (Place × Entry)) :
    (SortedMap.filterMapIn (spare refusal) bindings).filterMap (fileBelow? place)
      = (bindings.filterMap (fileBelow? place)).filter fun segments =>
        (refusal (place ++ segments)).isNone := by
  induction bindings with
  | nil => rfl
  | cons binding rest ih =>
    obtain ⟨q, e⟩ := binding
    cases e with
    | link target =>
      simpa [SortedMap.filterMapIn, spare, fileBelow?, List.filterMap_cons] using ih
    | directory => simpa [SortedMap.filterMapIn, spare, fileBelow?, List.filterMap_cons] using ih
    | file content runnable =>
      cases hbelow : below? place q with
      | none =>
        cases hr : refusal q <;>
          simpa [SortedMap.filterMapIn, spare, fileBelow?, hbelow, hr] using ih
      | some segments =>
        obtain ⟨rfl, -⟩ := below?_eq_some.1 hbelow
        cases hr : refusal (place ++ segments) <;>
          simpa [SortedMap.filterMapIn, spare, fileBelow?, hbelow, hr] using ih

/-- The files that are left are those that are not refused. -/
theorem filesBelow_spared (s : Storage) (refusal : Refusal) (place : Place) :
    (s.spared refusal).filesBelow place
      = (s.filesBelow place).filter fun segments => (refusal (place ++ segments)).isNone :=
  filterMap_fileBelow?_spare refusal place s.entries.toList

/-! ## §5 What is read -/

section Reading

variable {content : Bytes} {runnable : Bool} (hnamed : s.isNamed = true)
  (hfile : s.at? place = some (.file content runnable))

include hnamed hfile

theorem toOption_contents_pathOf (here : Place) :
    (s.contents here (pathOf place)).toOption
      = if (pathFault? place).isNone then some content else none := by
  have hfind := find_pathOf hnamed hfile (fun t ht => by cases ht) here
  unfold contents read
  rw [hfind]
  cases pathFault? place <;> rfl

theorem toOption_contentsBut_pathOf (here : Place) (refusal : Refusal) :
    (s.contentsBut here refusal (pathOf place)).toOption
      = if (refusal place).isNone then (s.contents here (pathOf place)).toOption else none := by
  have hread := toOption_contents_pathOf hnamed hfile here
  have hfind := find_pathOf hnamed hfile (fun t ht => by cases ht) here
  unfold contentsBut
  rw [hfind]
  cases hfault : pathFault? place with
  | none => cases hr : refusal place <;> simp [hr, Except.toOption]
  | some fault =>
    rw [hfault] at hread
    simp [hread]

/-- What is read when the tree is spared is what is read in the whole tree, mended. -/
theorem toOption_contents_spared (here : Place) (hleft : refusal place = none) :
    ((s.spared refusal).contents here (pathOf place)).toOption
      = (s.contentsBut here refusal (pathOf place)).toOption.map mendLines := by
  have hfile' : (s.spared refusal).at? place = some (.file (mendLines content) runnable) := by
    simp [at?_spared, hfile, spare, hleft]
  rw [toOption_contents_pathOf (isNamed_spared hnamed refusal) hfile',
    toOption_contentsBut_pathOf hnamed hfile, toOption_contents_pathOf hnamed hfile, hleft]
  cases pathFault? place <;> rfl

end Reading

end Storage

end ClassGraph
