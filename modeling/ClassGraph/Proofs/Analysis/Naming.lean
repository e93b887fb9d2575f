/-
ClassGraph.Proofs.Analysis.Naming — the names in the graph of a run.

A name comes into the graph from the path of a file, from a reference, or as
the class around a nested one. In a tree of plain names whose references have
no empty segment, names of the first two kinds are well formed. The class
around a nested one is what stands before the first nesting separator of the
simple name, and that may be nothing: then the target of the edge is the
package alone. `wellFormed_raw` says that this happens for the classes whose
simple name begins with a separator, and that no other name goes wrong.
-/
import ClassGraph.Proofs.Analysis.Origins
import ClassGraph.Proofs.Analysis.Weights
import ClassGraph.Proofs.Name.Agreement

namespace ClassGraph

/-! ## §1 Trees of plain names -/

namespace Name

variable {segments : List Segment}

/-- Segments that lead down to a class file: the directories are plain parts, and so is the name of
the file apart from its ending. -/
def IsPlainFile (segments : List Segment) : Prop :=
  ∃ dirs stem, (∀ part ∈ dirs ++ [stem], isPart part = true) ∧
    segments = dirs.map Path.ofText ++ [Path.ofText (stem ++ sourceEnding)]

/-- A class file of plain names lies where the file of some class does. -/
theorem IsPlainFile.pathBelow_eq (h : IsPlainFile segments) (root : Path) :
    ∃ parts, parts ≠ [] ∧ (∀ part ∈ parts, isPart part = true) ∧
      Walk.pathBelow root segments = filePath root parts := by
  obtain ⟨dirs, stem, hparts, rfl⟩ := h
  refine ⟨dirs ++ [stem], by simp, hparts, ?_⟩
  have hcut : cut Path.slash (Path.ofText (join ['/'] (dirs ++ [stem]) ++ sourceEnding))
      = dirs.map Path.ofText ++ [Path.ofText (stem ++ sourceEnding)] := by
    rw [Path.cut_ofText, cut_file hparts, List.map_append]
    rfl
  have hplain := isPlain_file (by simp) hparts
  rw [← hcut, Path.pathBelow_eq_extend (cut_ne_nil _ _) ?_, join_cut, filePath]
  intro s hs
  refine ⟨?_, not_mem_of_mem_cut hs⟩
  rintro rfl
  exact absurd (hplain [] hs) (by decide)

end Name

/-- Below a place, every class file has plain parts for its directories and its name. -/
def Storage.IsPlainBelow (s : Storage) (place : Place) : Prop :=
  ∀ segments ∈ s.filesBelow place, Walk.isSource (segments.getLastD []) = true →
    Name.IsPlainFile segments

namespace Walk

variable {st : Storage} {here : Place} {root file : Path} {paths : Option Selection}
  {closed : Closed} {literal : Name}

/-- In a tree of plain names, what the path of a file spells is well formed. -/
theorem wellFormed_of_mem_files (hroot : root.isAbsolute = true)
    (hplain : ∀ place, st.find here root = .ok (place, .directory) → st.IsPlainBelow place)
    (hfile : file ∈ (ofRoot st here root paths closed).1.files)
    (hname : Name.ofPath? root file = .ok literal) : literal.WellFormed ∧ '/' ∉ literal := by
  rcases mem_files_ofRoot hfile with rfl | ⟨place, hfind, hsource⟩
  · -- the root itself has no name below itself
    obtain ⟨rest, stem, hrest, hwritten, -⟩ := Name.ofPath?_eq_ok.1 hname
    rw [Path.below?_self hroot] at hrest
    cases hrest
    have hempty : [] = stem ++ Name.sourceEnding :=
      Except.ok.inj ((Utf8.decode_encode []).symm.trans hwritten)
    simp [Name.sourceEnding] at hempty
  · obtain ⟨segments, hsegments, rfl⟩ := List.mem_map.1 hsource
    obtain ⟨hbelow, hlisted⟩ := List.mem_filter.1 hsegments
    have hending := ((Bool.and_eq_true _ _).mp hlisted).1
    have hfile := hplain place hfind segments hbelow hending
    obtain ⟨parts, hne, hparts, hpath⟩ := hfile.pathBelow_eq root
    rw [hpath, Name.ofPath?_filePath hroot hne hparts] at hname
    cases hname
    constructor
    · refine Name.wellFormed_join hne fun part hp => ?_
      have hpart := hparts part hp
      exact ⟨Name.ne_nil_of_isPart hpart, Name.not_mem_of_isPart (by decide) hpart⟩
    · intro hslash
      rcases mem_join hslash with he | ⟨part, hp, hm⟩
      · cases he
      · exact Name.not_mem_of_isPart (by decide) (hparts part hp) hm

end Walk

/-! ## §2 References without empty segments -/

namespace Reference

/-- Whether what a reference names has no empty segment. -/
def isSegmented (body : Text) : Bool :=
  (cut '/' (body.takeWhile (· != '<'))).all fun segment => !segment.isEmpty

/-- Whether that holds of all references in the lines of a file. -/
def allSegmented (content : Bytes) : Bool :=
  (cut Scope.lineFeed content).all fun line =>
    (Utf8.decode line).toOption.all fun text => (inLine text).keys.all isSegmented

theorem wellFormed_of_allSegmented {content line : Bytes} {text body : Text}
    (h : allSegmented content = true) (hline : line ∈ cut Scope.lineFeed content)
    (htext : Utf8.decode line = .ok text) (hbody : body ∈ (inLine text).keys) :
    (Name.ofDescriptor body).WellFormed := by
  have hdot : '.' ∉ body := not_mem_of_mem_inLine (by decide) hbody
  have hlines := List.all_eq_true.1 h line hline
  rw [htext] at hlines
  have hsegments := List.all_eq_true.1 (List.all_eq_true.1 hlines body hbody)
  refine Name.wellFormed_ofDescriptor hdot fun segment hs => ?_
  simpa using hsegments segment hs

end Reference

/-! ## §3 Runs -/

theorem Storage.isAbsolute_of_canonical {st : Storage} {here : Place} {p root : Path}
    (h : st.canonical here p = .ok root) : root.isAbsolute = true := by
  unfold canonical at h
  cases hf : st.find here p with
  | error fault =>
    rw [hf] at h
    cases h
  | ok found =>
    rw [hf] at h
    cases h
    rfl

namespace Analysis

variable {st : Storage} {here : Place} {options : Options} {source : Source}
  {schedule : Nat → List Nat} {stopped : Bool} {root : Path} {closed : Closed} {a : Analysis}

/-- What a run reads has plain names below the root, and no reference with an empty segment in the
files that it walks. -/
structure PlainInput (st : Storage) (here : Place) (source : Source) (paths : Option Selection)
    (root : Path) (closed : Closed := Closed.nowhere) : Prop where
  names : ∀ place, st.find here root = .ok (place, .directory) → st.IsPlainBelow place
  references : ∀ file ∈ (Walk.ofRoot st here root paths closed).1.files, ∀ content,
    source.contents file = .ok content → Reference.allSegmented content = true

/-- Folding keeps the class well formed for which a file counts. -/
theorem PlainInput.wellFormed (h : PlainInput st here source options.paths root closed)
    (hroot : root.isAbsolute = true) {s literal : Name} {file : Path} {content : Bytes}
    (hfile : file ∈ (Walk.ofRoot st here root options.paths closed).1.files)
    (hfor : (scopeOf options root).CountsFor source.contents s file literal content) :
    s.WellFormed ∧ '/' ∉ s := by
  obtain ⟨hwf, hslash⟩ := Walk.wellFormed_of_mem_files hroot h.names hfile hfor.named
  rw [← hfor.folded]
  exact ⟨hwf.nearestNamed, fun hm => hslash ((Name.prefix_nearestNamed literal).subset hm)⟩

/-- **Names are well formed, save for one**: where what is read is plain, every class that is bound
has a well-formed name, and so has every target of an edge but the class around one whose simple
name begins with a nesting separator. -/
theorem wellFormed_raw
    (hrun : (run st here options source schedule stopped root closed).result = .ok a)
    (hplain : PlainInput st here source options.paths a.root closed) :
    (∀ s, a.raw.contains s = true → s.WellFormed) ∧
      ∀ s t w, a.raw.weight? s t = some w →
        (t.WellFormed ↔ ¬ (t = s.outer ∧ s.simple.head? = some '$')) := by
  have hroot := Storage.isAbsolute_of_canonical (run_eq_ok hrun).1
  constructor
  · intro s hs
    obtain ⟨file, hfile, literal, content, hfor⟩ := vertex_origin hrun hs
    exact (hplain.wellFormed hroot hfile hfor).1
  · intro s t w h
    obtain ⟨file, hfile, literal, content, hfor, hmem⟩ := edge_origin hrun h
    obtain ⟨hwf, hslash⟩ := hplain.wellFormed hroot hfile hfor
    have houter := Name.wellFormed_outer_iff hwf hslash
    have hcases := Scope.mem_mentions_cases hmem
    rw [hfor.folded] at hcases
    rcases hcases with ⟨-, rfl⟩ | ⟨line, hline, text, htext, body, hbody, hrefers⟩
    · simpa using houter
    · have htarget : t.WellFormed := by
        rw [Scope.eq_ofDescriptor_of_refersTo hrefers]
        have hsegmented := hplain.references file hfile content hfor.read
        exact Reference.wellFormed_of_allSegmented hsegmented hline htext hbody
      refine iff_of_true htarget ?_
      rintro ⟨rfl, hhead⟩
      exact houter.1 htarget hhead

/-- A directory with the file of a class whose name begins with a nesting separator. -/
def leadingTree : Storage := treeOf ['$', 'C']

/-- The run over that tree succeeds and reads nothing but plain input. -/
theorem leadingTree_run : ∃ a, (runOver leadingTree everything).result = .ok a ∧
    PlainInput leadingTree [] (leadingTree.source []) none a.root ∧
    a.raw.contains ['$', 'C'] = true ∧ (∃ w, a.raw.weight? ['$', 'C'] ['D'] = some w) ∧
    ∃ w, a.raw.weight? ['$', 'C'] [] = some w := by
  have hall : ((runOver leadingTree everything).result.toOption.map fun a =>
      (a.root, a.raw.contains ['$', 'C'], (a.raw.weight? ['$', 'C'] ['D']).isSome,
        (a.raw.weight? ['$', 'C'] []).isSome)) = some ([0x2F, 0x61], true, true, true) := by
    decide +kernel
  obtain ⟨a, ha, hfacts⟩ := Option.map_eq_some_iff.1 hall
  simp only [Prod.mk.injEq, Option.isSome_iff_exists] at hfacts
  obtain ⟨hroot, hbound, hreference, houter⟩ := hfacts
  refine ⟨a, eq_ok_of_toOption ha, ⟨?_, ?_⟩, hbound, hreference, houter⟩
  · have htop : leadingTree.find [] [0x2F, 0x61] = .ok ([[0x61]], .directory) := by decide +kernel
    have hfiles : leadingTree.filesBelow [[0x61]]
        = [[Path.ofText (['$', 'C'] ++ Name.sourceEnding)]] := by decide +kernel
    intro place hfind segments hsegments _
    rw [hroot, htop] at hfind
    cases hfind
    rw [hfiles, List.mem_singleton] at hsegments
    exact ⟨[], ['$', 'C'], by decide, hsegments⟩
  · rw [hroot]
    exact forall_contents_of_all (by decide +kernel)

/-- The class around one whose simple name begins with a separator has no name. -/
theorem nameless_target_occurs : ¬ ∀ a, (runOver leadingTree everything).result = .ok a →
    PlainInput leadingTree [] (leadingTree.source []) none a.root →
    ∀ s t w, a.raw.weight? s t = some w → t.WellFormed := by
  intro hclaim
  obtain ⟨a, ha, hplain, -, -, w, hw⟩ := leadingTree_run
  exact absurd (hclaim a ha hplain _ _ w hw) (by decide)

theorem wellFormed_raw_leadingTree : ∃ a, (runOver leadingTree everything).result = .ok a ∧
    Name.WellFormed ['$', 'C'] ∧ Name.WellFormed ['D'] ∧ ¬ Name.WellFormed [] := by
  obtain ⟨a, ha, hplain, hbound, ⟨v, hv⟩, w, hw⟩ := leadingTree_run
  obtain ⟨hvertex, htarget⟩ := wellFormed_raw ha hplain
  refine ⟨a, ha, hvertex _ hbound, (htarget _ _ v hv).2 (by decide), fun hwf => ?_⟩
  exact (htarget _ _ w hw).1 hwf (by decide)

end Analysis

end ClassGraph
