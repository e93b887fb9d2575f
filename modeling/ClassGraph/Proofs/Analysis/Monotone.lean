/-
ClassGraph.Proofs.Analysis.Monotone — narrower selections, smaller graphs.

Options are narrower than others where their selections accept less and their
markers mark more. What a file adds to an edge can only shrink with the
options (`share_le`), and the files of the walk can only become fewer, so the
sum over them shrinks, and with it the weight (`le_of_narrower`). Where the
options differ in the selection of classes alone, every file adds the same to
an edge between classes on which the selections agree (`share_of_agree`).
`weights_monotone` says both of whole runs.
-/
import Mathlib.Algebra.Order.BigOperators.Group.List
import Mathlib.Algebra.Order.Group.Nat
import ClassGraph.Proofs.Analysis.Weights
import ClassGraph.Proofs.Settings.Ignored

namespace ClassGraph

/-- Whether everything that one selection accepts is accepted by another. -/
def Selection.Narrower (selection selection' : Option Selection) : Prop :=
  ∀ s, passes selection s = true → passes selection' s = true

/-- Whether options ask for no more than others do: their selections accept no more, and all markers
of the others are among their own. -/
structure Options.Narrower (options options' : Options) : Prop where
  paths : Selection.Narrower options.paths options'.paths
  classes : Selection.Narrower options.classes options'.classes
  markers : options'.generated.fragments ⊆ options.generated.fragments

/-- Fewer markers mark fewer classes. -/
theorem Markers.isGenerated_of_subset {m m' : Markers} (h : m'.fragments ⊆ m.fragments) {n : Name}
    (hmarked : m'.isGenerated n = true) : m.isGenerated n = true := by
  simp only [isGenerated, List.any_eq_true] at hmarked ⊢
  obtain ⟨fragment, hfragment, hpart⟩ := hmarked
  exact ⟨fragment, h hfragment, hpart⟩

/-- A weight can only grow with the total. -/
theorem Weight.ofTotal_mono {n m : Nat} (h : n ≤ m) {w : Weight} (hw : ofTotal n = some w) :
    ∃ w', ofTotal m = some w' ∧ w.toNat ≤ w'.toNat := by
  have hn : n ≠ 0 := fun h0 => by
    rw [ofTotal_eq_none.2 h0] at hw
    cases hw
  have hm : m ≠ 0 := by omega
  rw [ofTotal, if_neg hn] at hw
  cases hw
  refine ⟨_, if_neg hm, ?_⟩
  rw [toNat_ofNat_min, toNat_ofNat_min]
  omega

namespace Analysis

variable {st : Storage} {here : Place} {options options' : Options} {contents : Contents}
  {root file : Path} {closed : Closed} {s t : Name}

/-! ## §1 The share of a file -/

theorem refersTo_of_narrower (h : options.Narrower options') {body : Text}
    (hrefers : (scopeOf options root).refersTo s t body = true) :
    (scopeOf options' root).refersTo s t body = true := by
  simp only [Scope.refersTo, scopeOf, Bool.and_eq_true, Bool.not_eq_true'] at hrefers ⊢
  obtain ⟨⟨⟨⟨⟨⟨hpath, hname⟩, hempty⟩, hclass⟩, hanonymous⟩, hmarked⟩, hself⟩ := hrefers
  refine ⟨⟨⟨⟨⟨⟨h.paths _ hpath, hname⟩, hempty⟩, h.classes _ hclass⟩, hanonymous⟩, ?_⟩, hself⟩
  cases hmarked' : options'.generated.isGenerated t with
  | false => rfl
  | true =>
    rw [Markers.isGenerated_of_subset h.markers hmarked'] at hmarked
    cases hmarked

theorem referencesIn_le (h : options.Narrower options') (s t : Name) (line : Bytes) :
    (scopeOf options root).referencesIn s t line ≤ (scopeOf options' root).referencesIn s t line := by
  unfold Scope.referencesIn
  split
  · exact List.countP_mono_left fun body _ hrefers => refersTo_of_narrower h hrefers
  · exact Nat.le_refl 0

/-- A file adds no more to an edge where the options are narrower. -/
theorem share_le (h : options.Narrower options') (contents : Contents) (s t : Name) (file : Path) :
    (scopeOf options root).share contents s t file
      ≤ (scopeOf options' root).share contents s t file := by
  by_cases hzero : (scopeOf options root).share contents s t file = 0
  · rw [hzero]
    exact Nat.zero_le _
  · obtain ⟨literal, content, hname, hread, rfl, hclass, -⟩ := Scope.mem_mentions_of_share hzero
    have hname' : Name.ofPath? (scopeOf options' root).root file = .ok literal := hname
    have hclass' := h.classes _ hclass
    rw [Scope.share_eq_count hname hread hclass, Scope.share_eq_count hname' hread hclass',
      Scope.count_mentions, Scope.count_mentions]
    exact Nat.add_le_add_right (List.sum_le_sum fun line _ => referencesIn_le h _ t line) _

/-- Where options differ in the selection of classes alone, a file adds the same to an edge between
classes on which the selections agree. -/
theorem share_of_agree (hpaths : options.paths = options'.paths)
    (hgenerated : options.generated = options'.generated)
    (hs : Selection.passes options.classes s = Selection.passes options'.classes s)
    (ht : Selection.passes options.classes t = Selection.passes options'.classes t)
    (contents : Contents) (file : Path) :
    (scopeOf options root).share contents s t file
      = (scopeOf options' root).share contents s t file := by
  have hrefers : (scopeOf options root).refersTo s t = (scopeOf options' root).refersTo s t := by
    funext body
    simp only [Scope.refersTo, scopeOf, hpaths, hgenerated, ht]
  have hlines : (scopeOf options root).referencesIn s t
      = (scopeOf options' root).referencesIn s t := by
    funext line
    simp only [Scope.referencesIn, hrefers]
  have hclass : Selection.passes (scopeOf options root).classes s
      = Selection.passes (scopeOf options' root).classes s := hs
  simp only [Scope.share, hlines, hclass]
  rfl

/-! ## §2 The files of a walk -/

/-- A walk lists fewer files where the selection of paths is narrower. -/
theorem files_sublist (h : Selection.Narrower options.paths options'.paths) (st : Storage)
    (here : Place) (root : Path) (closed : Closed) :
    (Walk.ofRoot st here root options.paths closed).1.files.Sublist
      (Walk.ofRoot st here root options'.paths closed).1.files := by
  rw [Walk.files_ofRoot_eq_filter, Walk.files_ofRoot_eq_filter st here root options'.paths]
  exact List.monotone_filter_right _ fun file hfile => h _ hfile

theorem short_files {paths : Option Selection}
    (h : Short contents (Walk.ofRoot st here root none closed).1.files) :
    Short contents (Walk.ofRoot st here root paths closed).1.files := by
  intro file hfile
  rw [Walk.files_ofRoot_eq_filter] at hfile
  exact h file (List.mem_filter.1 hfile).1

/-! ## §3 Runs -/

section Runs

variable {stops stops' : Path → Bool} {schedule schedule' : Nat → List Nat}
  {stopped stopped' : Bool} {a a' : Analysis}

theorem root_eq
    (h : (run st here options ⟨contents, stops⟩ schedule stopped root closed).result = .ok a)
    (h' : (run st here options' ⟨contents, stops'⟩ schedule' stopped' root closed).result
      = .ok a') :
    a.root = a'.root :=
  Except.ok.inj ((run_eq_ok h).1.symm.trans (run_eq_ok h').1)

/-- Narrower options give no new edge, and no edge a greater weight. -/
theorem le_of_narrower (hnarrower : options.Narrower options')
    (h : (run st here options ⟨contents, stops⟩ schedule stopped root closed).result = .ok a)
    (h' : (run st here options' ⟨contents, stops'⟩ schedule' stopped' root closed).result = .ok a')
    (hshort : Short contents (Walk.ofRoot st here a.root none closed).1.files) {w : Weight}
    (hw : a.raw.weight? s t = some w) :
    ∃ w', a'.raw.weight? s t = some w' ∧ w.toNat ≤ w'.toNat := by
  rw [weight?_raw h (short_files hshort)] at hw
  rw [root_eq h h'] at hw hshort
  rw [weight?_raw h' (short_files hshort)]
  refine Weight.ofTotal_mono ?_ hw
  have hfiles := files_sublist hnarrower.paths st here a'.root closed
  calc ((Walk.ofRoot st here a'.root options.paths closed).1.files.map
        ((scopeOf options a'.root).share contents s t)).sum
      ≤ ((Walk.ofRoot st here a'.root options.paths closed).1.files.map
        ((scopeOf options' a'.root).share contents s t)).sum :=
        List.sum_le_sum fun file _ => share_le hnarrower contents s t file
    _ ≤ ((Walk.ofRoot st here a'.root options'.paths closed).1.files.map
        ((scopeOf options' a'.root).share contents s t)).sum :=
        (hfiles.map _).sum_le_sum fun _ _ => Nat.zero_le _

/-- The selection of classes does not touch the edges between classes on which it does not
change. -/
theorem weight?_of_agree
    (h : (run st here options ⟨contents, stops⟩ schedule stopped root closed).result = .ok a)
    (h' : (run st here options' ⟨contents, stops'⟩ schedule' stopped' root closed).result = .ok a')
    (hshort : Short contents (Walk.ofRoot st here a.root none closed).1.files)
    (hpaths : options.paths = options'.paths) (hgenerated : options.generated = options'.generated)
    (hs : Selection.passes options.classes s = Selection.passes options'.classes s)
    (ht : Selection.passes options.classes t = Selection.passes options'.classes t) :
    a.raw.weight? s t = a'.raw.weight? s t := by
  have hshare : (scopeOf options a.root).share contents s t
      = (scopeOf options' a.root).share contents s t := by
    funext file
    exact share_of_agree hpaths hgenerated hs ht contents file
  rw [weight?_raw h (short_files hshort)]
  rw [root_eq h h'] at hshort hshare ⊢
  rw [weight?_raw h' (short_files hshort), hpaths, hshare]

/-- One more pattern of classes to be left out makes for narrower options. -/
theorem narrower_of_extra {r : AnalyzeRequest} {before after : List Text} {extra : Text}
    (hlist : r.ignored = before ++ after)
    (h : { r with ignored := before ++ extra :: after }.asked? st here = some options)
    (h' : r.asked? st here = some options') : options.Narrower options' := by
  obtain ⟨hpaths, hgenerated, found, -, hclasses⟩ := AnalyzeRequest.asked?_of_extra hlist h h'
  refine ⟨fun s hs => hpaths ▸ hs, fun n hn => ?_, fun _ hmarker => hgenerated ▸ hmarker⟩
  rw [hclasses, Bool.and_eq_true] at hn
  exact hn.1

/-- **Filtering is monotone**: of two runs over a tree, the one with the narrower options has no
edge that the other has not, and none with a greater weight. Where only the selection of classes
differs, the edges between classes that both accept are the same; so they are between classes that
one more pattern of classes to be left out does not match. -/
theorem weights_monotone
    (h : (run st here options ⟨contents, stops⟩ schedule stopped root closed).result = .ok a)
    (h' : (run st here options' ⟨contents, stops'⟩ schedule' stopped' root closed).result = .ok a')
    (hshort : Short contents (Walk.ofRoot st here a.root none closed).1.files) :
    (options.Narrower options' → ∀ s t w, a.raw.weight? s t = some w →
      ∃ w', a'.raw.weight? s t = some w' ∧ w.toNat ≤ w'.toNat) ∧
    (options.paths = options'.paths → options.generated = options'.generated →
      ∀ s t, Selection.passes options.classes s = Selection.passes options'.classes s →
        Selection.passes options.classes t = Selection.passes options'.classes t →
        a.raw.weight? s t = a'.raw.weight? s t) ∧
    ∀ (r : AnalyzeRequest) before extra after, r.ignored = before ++ after →
      { r with ignored := before ++ extra :: after }.asked? st here = some options →
      r.asked? st here = some options' →
      options.Narrower options' ∧ ∃ found, Selection.ofPattern extra = .ok found ∧
        ∀ s t, found.accepts s = false → found.accepts t = false →
          a.raw.weight? s t = a'.raw.weight? s t := by
  refine ⟨fun hnarrower s t w => le_of_narrower hnarrower h h' hshort,
    fun hpaths hgenerated s t => weight?_of_agree h h' hshort hpaths hgenerated, ?_⟩
  intro r before extra after hlist hasked hasked'
  obtain ⟨hpaths, hgenerated, found, hfound, hclasses⟩ :=
    AnalyzeRequest.asked?_of_extra hlist hasked hasked'
  refine ⟨narrower_of_extra hlist hasked hasked', found, hfound, fun s t hs ht => ?_⟩
  refine weight?_of_agree h h' hshort hpaths hgenerated ?_ ?_
  · rw [hclasses, hs, Bool.not_false, Bool.and_true]
  · rw [hclasses, ht, Bool.not_false, Bool.and_true]

/-- The request for the directory of a small tree, with patterns of classes to be left out. -/
def requestWithout (ignored : List Text) : AnalyzeRequest :=
  ⟨[0x61], none, none, ignored, true, [], false, .csv, false, none⟩

/-- What the run over the nested classes makes of the edge to `D`, with the patterns of a
request. -/
def nestedWeight? (ignored : List Text) : Option (Path × Option Nat) :=
  ((requestWithout ignored).asked? nestedTree []).bind fun options =>
    (runOver nestedTree options).result.toOption.map fun a =>
      (a.root, (a.raw.weight? ['B', '$', 'C'] ['D']).map UInt32.toNat)

theorem exists_run_of_nestedWeight? {ignored : List Text} {w : Option Nat}
    (h : nestedWeight? ignored = some ([0x2F, 0x61], w)) : ∃ options a,
      (requestWithout ignored).asked? nestedTree [] = some options ∧
      (runOver nestedTree options).result = .ok a ∧ a.root = [0x2F, 0x61] ∧
      (a.raw.weight? ['B', '$', 'C'] ['D']).map UInt32.toNat = w := by
  obtain ⟨options, hasked, hrun⟩ := Option.bind_eq_some_iff.1 h
  obtain ⟨a, ha, hfacts⟩ := Option.map_eq_some_iff.1 hrun
  obtain ⟨hroot, hweight⟩ := Prod.mk.inj hfacts
  exact ⟨options, a, hasked, eq_ok_of_toOption ha, hroot, hweight⟩

/-- With the class `B` left out, the edges of the class inside it stay as they are. -/
theorem weights_monotone_nestedTree : ∃ options options' a a',
    (requestWithout [['B']]).asked? nestedTree [] = some options ∧
    (requestWithout []).asked? nestedTree [] = some options' ∧
    (runOver nestedTree options).result = .ok a ∧ (runOver nestedTree options').result = .ok a' ∧
    options.Narrower options' ∧
    (∀ s t w, a.raw.weight? s t = some w →
      ∃ w', a'.raw.weight? s t = some w' ∧ w.toNat ≤ w'.toNat) ∧
    (a.raw.weight? ['B', '$', 'C'] ['D']).map UInt32.toNat = some 3 ∧
    a.raw.weight? ['B', '$', 'C'] ['D'] = a'.raw.weight? ['B', '$', 'C'] ['D'] := by
  have hnarrow : nestedWeight? [['B']] = some ([0x2F, 0x61], some 3) := by decide +kernel
  have hwide : nestedWeight? [] = some ([0x2F, 0x61], some 3) := by decide +kernel
  have hshort : isShort (nestedTree.contents [])
      (Walk.ofRoot nestedTree [] [0x2F, 0x61] none).1.files = true := by decide +kernel
  have hpattern : (Selection.ofPattern ['B']).toOption.map (fun found =>
      (found.accepts ['B', '$', 'C'], found.accepts ['D'])) = some (false, false) := by
    decide +kernel
  obtain ⟨options, a, hasked, ha, hroot, hweight⟩ := exists_run_of_nestedWeight? hnarrow
  obtain ⟨options', a', hasked', ha', -, -⟩ := exists_run_of_nestedWeight? hwide
  rw [← hroot] at hshort
  obtain ⟨hle, -, hextra⟩ := weights_monotone ha ha' (short_of_isShort hshort)
  obtain ⟨hnarrower, found, hfound, hequal⟩ :=
    hextra (requestWithout []) [] ['B'] [] rfl hasked hasked'
  rw [hfound] at hpattern
  obtain ⟨hs, ht⟩ := Prod.mk.inj (Option.some.inj hpattern)
  exact ⟨options, options', a, a', hasked, hasked', ha, ha', hnarrower, hle hnarrower, hweight,
    hequal _ _ hs ht⟩

end Runs

end Analysis

end ClassGraph
