/-
ClassGraph.Proofs.Walk.Exact — a walk finds the class files below its root,
and finds them in order.

A root that leads to a directory, by itself or through links, is walked from
that directory (`visits_of_find`). Different segments below it lead to
different paths, and the segments are had back from the paths
(`segmentsBelow_pathBelow`), so what is known of the files of a tree carries
over to the paths that are listed: `exact_ofRoot`. The root may be absolute or
relative, and it may be spelled in any way. Closed directories hide from a
walk what lies below them, and nothing else: `files_ofRoot_closed`.
-/
import ClassGraph.Proofs.Name.Reached
import ClassGraph.Proofs.Walk.Descent

namespace ClassGraph

/-! ## §1 Roots that lead to directories -/

namespace Storage

variable {s : Storage} {here place p : Place} {segments : List Segment} {links : Nat} {path : Path}

/-- What leads to a directory through all links leads there too where its last segment is not
followed, unless that is a link. -/
theorem resolve_unfollowed
    (h : s.resolve true links place segments = .ok (.existing p .directory)) :
    s.resolve false links place segments = .ok (.existing p .directory) ∨
      ∃ q target, s.resolve false links place segments = .ok (.existing q (.link target)) := by
  induction links, place, segments using resolve_induct with
  | reached hat =>
    cases h
    exact .inl (resolve_nil hat)
  | idle hdir hidle ih =>
    rw [resolve_idle hdir hidle]
    exact ih h
  | up hdir ih =>
    rw [resolve_up hdir]
    exact ih h
  | lastLink _ _ hlast => simp at hlast
  | @link _ _ _ rest _ hseeks hat _ ih =>
    by_cases hend : (rest.isEmpty && !false) = true
    · exact .inr ⟨_, _, resolve_link_last hseeks hat hend⟩
    · rw [resolve_link hseeks hat hend]
      exact ih h
  | next hseeks hat hlink ih =>
    rw [resolve_next hseeks hat hlink]
    exact ih h
  | _ => cases h

theorem lookUp_unfollowed (h : s.find here path = .ok (p, .directory)) :
    s.lookUp here false path = .ok (.existing p .directory) ∨
      ∃ q target, s.lookUp here false path = .ok (.existing q (.link target)) := by
  obtain ⟨hne, hzero, hlong, hresolve⟩ := lookUp_eq_ok.1 (find_eq_ok.1 h)
  rcases resolve_unfollowed hresolve with hdir | ⟨q, target, hlink⟩
  · exact .inl (lookUp_eq_ok.2 ⟨hne, hzero, hlong, hdir⟩)
  · exact .inr ⟨q, target, lookUp_eq_ok.2 ⟨hne, hzero, hlong, hlink⟩⟩

end Storage

namespace Walk

variable {s : Storage} {here place : Place} {root file : Path} {segments : List Segment}
  {closed : Closed}

/-- A walk goes through what lies below the directory that its root leads to. -/
theorem visits_of_find (h : s.find here root = .ok (place, .directory)) (closed : Closed) :
    visits s here root closed = visitsBelow s closed root place := by
  unfold visits
  rcases Storage.lookUp_unfollowed h with hdir | ⟨q, target, hlink⟩
  · rw [hdir]
  · rw [hlink]
    simp only [h]

theorem files_ofRoot_of_find (h : s.find here root = .ok (place, .directory))
    (paths : Option Selection) (closed : Closed) :
    (ofRoot s here root paths closed).1.files
      = (sources s root place closed).filter fun file =>
        Selection.passes paths (Path.display file) := by
  rw [ofRoot, files_ofVisits, visits_of_find h, filterMap_file?_visitsBelow]

/-! ## §2 Paths by what leads down to them -/

/-- The segments of what follows a root in a path below it. -/
def segmentsBelow (root file : Path) : List Segment :=
  cut Path.slash ((Path.below? root file).getD [])

theorem segmentsBelow_pathBelow (hroot : root ≠ []) (hne : segments ≠ [])
    (hnames : ∀ name ∈ segments, Path.isName name = true) :
    segmentsBelow root (pathBelow root segments) = segments := by
  rw [segmentsBelow, below?_pathBelow hroot hne hnames, Option.getD_some]
  exact cut_join hne fun name hname => Path.slash_not_mem_of_isName (hnames name hname)

/-- The class files below a directory come in the order of what leads down to them. -/
theorem sources_pairwise (hnamed : s.isNamed = true) (hroot : root ≠ []) (place : Place)
    (closed : Closed) : (sources s root place closed).Pairwise fun a b =>
      segmentsBelow root a < segmentsBelow root b := by
  refine List.pairwise_map.2 (List.Pairwise.imp_of_mem ?_
    ((s.filesBelow_pairwise place).filter _))
  intro segments others hsegments hothers hlt
  obtain ⟨hs, hsnames⟩ := s.isName_of_mem_filesBelow hnamed (List.mem_filter.1 hsegments).1
  obtain ⟨ho, honames⟩ := s.isName_of_mem_filesBelow hnamed (List.mem_filter.1 hothers).1
  rwa [segmentsBelow_pathBelow hroot hs hsnames, segmentsBelow_pathBelow hroot ho honames]

/-- The class files below a directory have different paths. -/
theorem nodup_sources (hnamed : s.isNamed = true) (hroot : root ≠ []) (place : Place)
    (closed : Closed) : (sources s root place closed).Nodup :=
  (sources_pairwise hnamed hroot place closed).imp fun hlt heq => by
    rw [heq] at hlt
    exact List.lt_irrefl _ hlt

theorem sources_nowhere (s : Storage) (root : Path) (place : Place) :
    sources s root place = ((s.filesBelow place).filter fun segments =>
      isSource (segments.getLastD [])).map (pathBelow root) := by
  simp [sources]

/-- A class file is behind a closed directory or it is one of those that a walk comes upon. -/
theorem sources_closed (hnamed : s.isNamed = true) (hroot : root ≠ []) (place : Place)
    (closed : Closed) :
    sources s root place closed = (sources s root place).filter fun file =>
      isOpen closed root (segmentsBelow root file) := by
  rw [sources_nowhere, List.filter_map, sources, List.filter_filter]
  congr 1
  refine List.filter_congr fun segments hsegments => ?_
  obtain ⟨hne, hnames⟩ := s.isName_of_mem_filesBelow hnamed hsegments
  rw [Function.comp_apply, segmentsBelow_pathBelow hroot hne hnames, Bool.and_comm]

/-- Closed directories hide what lies below them from a walk. -/
theorem files_ofRoot_closed (hfind : s.find here root = .ok (place, .directory))
    (hnamed : s.isNamed = true) (paths : Option Selection) (closed : Closed) :
    (ofRoot s here root paths closed).1.files
      = (ofRoot s here root paths).1.files.filter fun file =>
        isOpen closed root (segmentsBelow root file) := by
  have hroot := Storage.ne_nil_of_find hfind
  rw [files_ofRoot_of_find hfind, files_ofRoot_of_find hfind, sources_closed hnamed hroot,
    List.filter_filter, List.filter_filter]
  exact List.filter_congr fun file _ => Bool.and_comm ..

/-! ## §3 Class files -/

/-- A path leads down from the root, through directories alone, to a file with the name of a class
file: something, and the ending after it. -/
def IsClassFile (s : Storage) (root : Path) (place : Place) (file : Path) : Prop :=
  ∃ above stem, stem ≠ [] ∧ s.Reaches place (above ++ [Path.ofText (stem ++ Name.sourceEnding)]) ∧
    file = pathBelow root (above ++ [Path.ofText (stem ++ Name.sourceEnding)])

theorem isSource_ofText {name : Text} :
    isSource (Path.ofText name) = true ↔ ∃ stem, stem ≠ [] ∧ name = stem ++ Name.sourceEnding := by
  rw [isSource, Path.ofText, Utf8.lenient_encode, Name.isSourceFile_iff]

/-- Where names are text, the files below a directory that are told by their names are those that
have the ending. -/
theorem mem_sources (htext : s.IsTextBelow place) :
    file ∈ sources s root place ↔ IsClassFile s root place file := by
  rw [sources_nowhere]
  constructor
  · intro h
    obtain ⟨segments, hmem, rfl⟩ := List.mem_map.1 h
    obtain ⟨hbelow, hsource⟩ := List.mem_filter.1 hmem
    obtain ⟨texts, rfl⟩ := htext segments hbelow hsource
    have hreaches := Storage.mem_filesBelow_iff_reaches.1 hbelow
    rcases List.eq_nil_or_concat' texts with rfl | ⟨dirs, last, rfl⟩
    · exact absurd rfl hreaches.file_at.1
    · rw [List.map_append, List.map_singleton] at hreaches hsource ⊢
      rw [List.getLastD_concat] at hsource
      obtain ⟨stem, hstem, rfl⟩ := isSource_ofText.1 hsource
      exact ⟨dirs.map Path.ofText, stem, hstem, hreaches, rfl⟩
  · rintro ⟨above, stem, hstem, hreaches, rfl⟩
    refine List.mem_map_of_mem (List.mem_filter.2
      ⟨Storage.mem_filesBelow_iff_reaches.2 hreaches, ?_⟩)
    rw [List.getLastD_concat]
    exact isSource_ofText.2 ⟨stem, hstem, rfl⟩

/-! ## §4 What a walk finds -/

/-- The class files that a selection leaves out are counted. -/
theorem excluded_ofVisits (paths : Option Selection) (found : List Visit) :
    (ofVisits paths found).1.excluded = ((found.filterMap Visit.file?).filter fun file =>
      !Selection.passes paths (Path.display file)).length := by
  have hlength := length_ofVisits paths found
  have hsplit := List.length_eq_length_filter_add
    (fun file => Selection.passes paths (Path.display file)) (l := found.filterMap Visit.file?)
  rw [files_ofVisits] at hlength
  omega

/-- What a walk has found below the directory that its root leads to. -/
structure Exact (s : Storage) (root : Path) (place : Place) (paths : Option Selection)
    (w : Walk) : Prop where
  /-- The class files are listed that the selection accepts by their paths. -/
  files : ∀ file, file ∈ w.files ↔
    IsClassFile s root place file ∧ Selection.passes paths (Path.display file) = true
  /-- None of them is listed twice. -/
  once : w.files.Nodup
  /-- They are listed in the order of the segments that lead down to them. -/
  inOrder : w.files.Pairwise fun a b => segmentsBelow root a < segmentsBelow root b
  /-- The class files that the selection does not accept are counted. -/
  excluded : ∃ rejected : List Path, rejected.Nodup ∧ rejected.length = w.excluded ∧
    ∀ file, file ∈ rejected ↔
      IsClassFile s root place file ∧ Selection.passes paths (Path.display file) = false
  /-- In whatever order a directory lists its entries, a descent that takes them by name and goes
  down where it meets a directory lists the same. -/
  descent : ∀ listing, s.Lists listing → w.files =
    (((s.descend listing place).filter fun segments => isSource (segments.getLastD [])).map
      (pathBelow root)).filter fun file => Selection.passes paths (Path.display file)

/-- **A walk finds the class files below its root**, each of them once and in order, whether the
root is a directory or leads to one through links. -/
theorem exact_ofRoot (hfind : s.find here root = .ok (place, .directory))
    (hnamed : s.isNamed = true) (htext : s.IsTextBelow place) (paths : Option Selection) :
    Exact s root place paths (ofRoot s here root paths).1 := by
  have hroot := Storage.ne_nil_of_find hfind
  have hfiles := files_ofRoot_of_find hfind paths .nowhere
  constructor
  case files =>
    intro file
    rw [hfiles, List.mem_filter, mem_sources htext]
  case once =>
    rw [hfiles]
    exact (nodup_sources hnamed hroot place _).filter _
  case inOrder =>
    rw [hfiles]
    exact (sources_pairwise hnamed hroot place _).filter _
  case excluded =>
    refine ⟨(sources s root place).filter fun file =>
      !Selection.passes paths (Path.display file), (nodup_sources hnamed hroot place _).filter _,
      ?_, fun file => ?_⟩
    · rw [ofRoot, excluded_ofVisits, visits_of_find hfind, filterMap_file?_visitsBelow]
    · rw [List.mem_filter, mem_sources htext, Bool.not_eq_true']
  case descent =>
    intro listing hlists
    rw [hfiles, Storage.descend_eq_filesBelow hlists, sources_nowhere]

/-- A directory that a link leads to, with a directory in it and files whose names begin alike, one
of them a link. -/
def linkedTree : Storage :=
  Storage.empty
    |>.put [] [0x61] .directory
    |>.put [] [0x6C] (.link [0x61])
    |>.put [[0x61]] [0x62] .directory
    |>.put [[0x61], [0x62]] (Path.ofText (['c'] ++ Name.sourceEnding)) (.file [] false)
    |>.put [[0x61]] (Path.ofText (['b'] ++ Name.sourceEnding)) (.file [] false)
    |>.put [[0x61]] (Path.ofText (['b', 'd'] ++ Name.sourceEnding)) (.link [0x62])
    |>.put [[0x61]] (Path.ofText (['e'] ++ Name.sourceEnding)) (.file [] false)

theorem isTextBelow_linkedTree : linkedTree.IsTextBelow [[0x61]] := by
  have hfiles : linkedTree.filesBelow [[0x61]]
      = [[['b'], ['c'] ++ Name.sourceEnding], [['b'] ++ Name.sourceEnding],
        [['e'] ++ Name.sourceEnding]].map (List.map Path.ofText) := by decide +kernel
  intro segments hsegments _
  rw [hfiles] at hsegments
  obtain ⟨texts, -, rfl⟩ := List.mem_map.1 hsegments
  exact ⟨texts, rfl⟩

/-- Below a link, `b` stands before `b.smali`, and a link that is named like a class file is none. -/
theorem exact_ofRoot_linkedTree :
    linkedTree.lookUp [] false [0x6C] = .ok (.existing [[0x6C]] (.link [0x61])) ∧
      (ofRoot linkedTree [] [0x6C] (some (.holding ['b']))).1.files
        = [Path.ofText ['l', '/', 'b', '/', 'c', '.', 's', 'm', 'a', 'l', 'i'],
          Path.ofText ['l', '/', 'b', '.', 's', 'm', 'a', 'l', 'i']] ∧
      (ofRoot linkedTree [] [0x6C] (some (.holding ['b']))).1.excluded = 1 ∧
      linkedTree.Lists linkedTree.namesIn ∧
      Exact linkedTree [0x6C] [[0x61]] (some (.holding ['b']))
        (ofRoot linkedTree [] [0x6C] (some (.holding ['b']))).1 := by
  have hfind : linkedTree.find [] [0x6C] = .ok ([[0x61]], .directory) := by decide +kernel
  have hnamed : linkedTree.isNamed = true := by decide +kernel
  exact ⟨by decide +kernel, by decide +kernel, by decide +kernel, linkedTree.lists_namesIn,
    exact_ofRoot hfind hnamed isTextBelow_linkedTree _⟩

end Walk

end ClassGraph
