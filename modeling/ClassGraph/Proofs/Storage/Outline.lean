/-
ClassGraph.Proofs.Storage.Outline — trees that differ in what their files
hold.

Two trees have the same outline where every place holds the same directory or
the same link in both, or a file in both. Paths are followed through
directories and links alone, so a path leads to the same place in both trees
(`resolve_outline`, `find_outline`), and a walk comes upon the same
(`ofRoot_outline`). What differs is what is read, and that only for a file that
is not the same in both (`contentsBut_outline`).
-/
import Mathlib.Data.List.Sort
import ClassGraph.Proofs.Storage.Spared

namespace ClassGraph

/-! ## §1 Outlines -/

/-- An entry, whatever a file holds. -/
def Entry.outline : Entry → Entry
  | .file .. => .file [] false
  | .link target => .link target
  | .directory => .directory

/-- What a path leads to, whatever a file holds. -/
def Found.outline : Found → Found
  | .existing place e => .existing place e.outline
  | .vacant parent name => .vacant parent name

/-- An entry at its place, whatever a file holds. -/
def outlineAt (found : Place × Entry) : Place × Entry := (found.1, found.2.outline)

namespace Storage

/-- Whether two trees have the same entries, whatever their files hold. -/
def SameOutline (s s' : Storage) : Prop :=
  ∀ place, (s.at? place).map Entry.outline = (s'.at? place).map Entry.outline

variable {s s' : Storage} {here base place : Place} {segments : List Segment} {e : Entry}
  {follow : Bool} {links : Nat} {p root : Path}

theorem SameOutline.symm (h : s.SameOutline s') : s'.SameOutline s := fun place =>
  (h place).symm

theorem SameOutline.vacant (h : s.SameOutline s') (hat : s.at? place = none) :
    s'.at? place = none := by
  have hplace := h place
  rw [hat] at hplace
  exact Option.map_eq_none_iff.1 hplace.symm

theorem SameOutline.exists_at? (h : s.SameOutline s') (hat : s.at? place = some e) :
    ∃ e', s'.at? place = some e' ∧ e'.outline = e.outline := by
  have hplace := h place
  rw [hat] at hplace
  exact Option.map_eq_some_iff.1 hplace.symm

theorem SameOutline.directory (h : s.SameOutline s') (hat : s.at? place = some .directory) :
    s'.at? place = some .directory := by
  obtain ⟨e', hat', he⟩ := h.exists_at? hat
  cases e' with
  | directory => exact hat'
  | link target => cases he
  | file content runnable => cases he

theorem SameOutline.link {target : Path} (h : s.SameOutline s')
    (hat : s.at? place = some (.link target)) : s'.at? place = some (.link target) := by
  obtain ⟨e', hat', he⟩ := h.exists_at? hat
  cases e' with
  | directory => cases he
  | link target' =>
    cases he
    exact hat'
  | file content runnable => cases he

theorem SameOutline.trans {s'' : Storage} (h : s.SameOutline s') (h' : s'.SameOutline s'') :
    s.SameOutline s'' := fun place => (h place).trans (h' place)

/-- Another file in the place of a file leaves the outline as it is. -/
theorem SameOutline.put {parent : Place} {name : Segment} (content : Bytes) (runnable : Bool)
    (h : (s.at? (parent ++ [name])).map Entry.outline = some (.file [] false)) :
    s.SameOutline (s.put parent name (.file content runnable)) := by
  intro other
  by_cases hallows : s.allows parent name = true
  · by_cases hother : other = parent ++ [name]
    · subst hother
      rw [at?_put_self hallows, h]
      rfl
    · rw [at?_put_of_ne hother]
  · rw [Storage.put, dif_neg hallows]

/-! ## §2 Where paths lead -/

/-- A path leads to the same place, or nowhere for the same reason. -/
theorem resolve_outline (h : s.SameOutline s') :
    (s'.resolve follow links base segments).map Found.outline
      = (s.resolve follow links base segments).map Found.outline := by
  have hseeksIn : ∀ {base name}, s.Seeks base name → s'.Seeks base name :=
    fun hseeks => { hseeks with directory := h.directory hseeks.directory }
  symm
  induction links, base, segments using resolve_induct with
  | nowhere hnone => rw [resolve_eq, h.vacant hnone]
  | reached hat =>
    obtain ⟨e', hat', he'⟩ := h.exists_at? hat
    rw [resolve_nil hat']
    simp [Except.map, Found.outline, he']
  | idle hdir hidle ih => rw [resolve_idle (h.directory hdir) hidle, ih]
  | up hdir ih => rw [resolve_up (h.directory hdir), ih]
  | long hdir hidle hup hlong => rw [resolve_long (h.directory hdir) hidle hup hlong]
  | vacant hseeks hnone hlast =>
    simp only [resolve_of_seeks (hseeksIn hseeks), h.vacant hnone, if_pos hlast]
  | missing hseeks hnone hlast =>
    simp only [resolve_of_seeks (hseeksIn hseeks), h.vacant hnone, if_neg hlast]
  | lastLink hseeks hat hlast => rw [resolve_link_last (hseeksIn hseeks) (h.link hat) hlast]
  | tooMany hseeks hat hlast =>
    simp only [resolve_of_seeks (hseeksIn hseeks), h.link hat, if_neg hlast]
  | link hseeks hat hlast ih => rw [resolve_link (hseeksIn hseeks) (h.link hat) hlast, ih]
  | next hseeks hat hlink ih =>
    obtain ⟨next', hat', -⟩ := h.exists_at? hat
    have hlink' : ∀ target, next' ≠ .link target := by
      rintro target rfl
      exact hlink target (Option.some.inj (hat.symm.trans (h.symm.link hat')))
    rw [resolve_next (hseeksIn hseeks) hat' hlink', ih]
  | blocked hat hdir =>
    obtain ⟨e', hat', -⟩ := h.exists_at? hat
    rw [resolve_eq, hat']
    cases e' with
    | directory => exact absurd (Option.some.inj (hat.symm.trans (h.symm.directory hat'))) hdir
    | link target => rfl
    | file content runnable => rfl

theorem lookUp_outline (h : s.SameOutline s') (here : Place) (follow : Bool) (p : Path) :
    (s'.lookUp here follow p).map Found.outline = (s.lookUp here follow p).map Found.outline := by
  unfold lookUp
  split
  · rfl
  · split
    · rfl
    · split
      · rfl
      · exact resolve_outline h

theorem find_eq_outline (s : Storage) (here : Place) (p : Path) :
    (s.find here p).map outlineAt =
      match (s.lookUp here true p).map Found.outline with
      | .ok (.existing place e) => .ok (place, e)
      | .ok (.vacant ..) => .error .missing
      | .error fault => .error fault := by
  unfold find
  cases s.lookUp here true p with
  | error fault => rfl
  | ok found => cases found <;> rfl

/-- What a path leads to through all links lies at the same place. -/
theorem find_outline (h : s.SameOutline s') (here : Place) (p : Path) :
    (s'.find here p).map outlineAt = (s.find here p).map outlineAt := by
  rw [find_eq_outline, find_eq_outline, lookUp_outline h]

theorem canonical_eq_outline (s : Storage) (here : Place) (p : Path) :
    s.canonical here p = ((s.find here p).map outlineAt).map fun found => pathOf found.1 := by
  unfold canonical
  cases s.find here p <;> rfl

theorem canonical_outline (h : s.SameOutline s') (here : Place) (p : Path) :
    s'.canonical here p = s.canonical here p := by
  rw [canonical_eq_outline, canonical_eq_outline, find_outline h]

theorem exists?_eq_outline (s : Storage) (here : Place) (p : Path) :
    s.exists? here p = ((s.find here p).map outlineAt).toOption.isSome := by
  unfold exists?
  cases s.find here p <;> rfl

theorem exists?_outline (h : s.SameOutline s') (here : Place) (p : Path) :
    s'.exists? here p = s.exists? here p := by
  rw [exists?_eq_outline, exists?_eq_outline, find_outline h]

/-! ## §3 What a walk comes upon -/

/-- Lists in strictly increasing order of their keys are equal where they hold the same. -/
theorem eq_of_mem_iff_of_keys {κ α : Type} [LT κ] [StrictOrder κ] {k : α → κ} {l l' : List α}
    (h : l.Pairwise fun a b => k a < k b) (h' : l'.Pairwise fun a b => k a < k b)
    (hmem : ∀ a, a ∈ l ↔ a ∈ l') : l = l' := by
  have hne : ∀ {a b : α}, k a < k b → a ≠ b := by
    rintro a b hlt rfl
    exact StrictOrder.irrefl (k a) hlt
  have hperm := (List.perm_ext_iff_of_nodup (h.imp hne) (h'.imp hne)).2 hmem
  refine hperm.eq_of_pairwise ?_ h h'
  intro a b _ _ hab hba
  exact absurd (StrictOrder.trans hab hba) (StrictOrder.irrefl (k a))

/-- Lists in strictly increasing order are equal where they hold the same. -/
theorem eq_of_mem_iff_of_pairwise {κ : Type} [LT κ] [StrictOrder κ] {l l' : List κ}
    (h : l.Pairwise (· < ·)) (h' : l'.Pairwise (· < ·)) (hmem : ∀ a, a ∈ l ↔ a ∈ l') : l = l' :=
  eq_of_mem_iff_of_keys h h' hmem

theorem mem_map_outlineAt_entriesBelow :
    (segments, e) ∈ (s.entriesBelow base).map outlineAt ↔
      segments ≠ [] ∧ (s.at? (base ++ segments)).map Entry.outline = some e := by
  rw [List.mem_map, Option.map_eq_some_iff]
  constructor
  · intro h
    obtain ⟨⟨rest, entry⟩, hmem, heq⟩ := h
    cases heq
    obtain ⟨hne, hat⟩ := mem_entriesBelow.1 hmem
    exact ⟨hne, entry, hat, rfl⟩
  · intro h
    obtain ⟨hne, entry, hat, rfl⟩ := h
    exact ⟨(segments, entry), mem_entriesBelow.2 ⟨hne, hat⟩, rfl⟩

theorem entriesBelow_pairwise (s : Storage) (place : Place) :
    (s.entriesBelow place).Pairwise fun a b => a.1 < b.1 := by
  refine List.Pairwise.filterMap _ ?_ s.entries.inOrder
  intro binding binding' hlt a ha b hb
  obtain ⟨rest, hrest, rfl⟩ := Option.map_eq_some_iff.1 ha
  obtain ⟨rest', hrest', rfl⟩ := Option.map_eq_some_iff.1 hb
  rw [(below?_eq_some.1 hrest).1, (below?_eq_some.1 hrest').1] at hlt
  exact lt_of_append_lt_append hlt

/-- The same entries lie below a place, whatever the files among them hold. -/
theorem entriesBelow_outline (h : s.SameOutline s') (place : Place) :
    (s'.entriesBelow place).map outlineAt = (s.entriesBelow place).map outlineAt := by
  refine eq_of_mem_iff_of_keys (k := Prod.fst)
    (List.pairwise_map.2 (entriesBelow_pairwise s' place))
    (List.pairwise_map.2 (entriesBelow_pairwise s place)) ?_
  rintro ⟨rest, e⟩
  rw [mem_map_outlineAt_entriesBelow, mem_map_outlineAt_entriesBelow, h]

theorem visit?_outline (closed : Closed) (root : Path) (segments : List Segment) (e : Entry) :
    Walk.visit? closed root segments e.outline = Walk.visit? closed root segments e := by
  cases e <;> rfl

theorem visitsBelow_eq_outline (s : Storage) (closed : Closed) (root : Path) (place : Place) :
    Walk.visitsBelow s closed root place =
      (([], .directory) :: (s.entriesBelow place).map outlineAt).filterMap fun (segments, e) =>
        Walk.visit? closed root segments e := by
  rw [Walk.visitsBelow, List.filterMap_cons, List.filterMap_cons, List.filterMap_map]
  simp only [Function.comp_def, outlineAt, visit?_outline]

theorem visitsBelow_outline (h : s.SameOutline s') (closed : Closed) (root : Path)
    (place : Place) :
    Walk.visitsBelow s' closed root place = Walk.visitsBelow s closed root place := by
  rw [visitsBelow_eq_outline, visitsBelow_eq_outline, entriesBelow_outline h]

theorem visits_eq_outline (s : Storage) (here : Place) (root : Path) (closed : Closed) :
    Walk.visits s here root closed =
      match (s.lookUp here false root).map Found.outline with
      | .error fault => [.unvisited root fault.message]
      | .ok (.vacant ..) => [.unvisited root StorageFault.missing.message]
      | .ok (.existing place .directory) => Walk.visitsBelow s closed root place
      | .ok (.existing _ (.file ..)) =>
        if Walk.isSource ((Path.fileName? root).getD root) then [.file root] else []
      | .ok (.existing _ (.link _)) =>
        match (s.find here root).map outlineAt with
        | .ok (place, .directory) => Walk.visitsBelow s closed root place
        | .ok _ => []
        | .error fault => [.unvisited root fault.message] := by
  unfold Walk.visits
  cases s.lookUp here false root with
  | error fault => rfl
  | ok found =>
    cases found with
    | vacant parent name => rfl
    | existing place e =>
      cases e with
      | directory => rfl
      | file content runnable => rfl
      | link target =>
        cases s.find here root with
        | error fault => rfl
        | ok found =>
          obtain ⟨place, e⟩ := found
          cases e <;> rfl

/-- A walk lists the same files and tells the same of what it comes upon. -/
theorem ofRoot_outline (h : s.SameOutline s') (here : Place) (root : Path)
    (paths : Option Selection) (closed : Closed) :
    Walk.ofRoot s' here root paths closed = Walk.ofRoot s here root paths closed := by
  rw [Walk.ofRoot, Walk.ofRoot, visits_eq_outline, visits_eq_outline, lookUp_outline h,
    find_outline h]
  simp only [visitsBelow_outline h]

/-! ## §4 What is read -/

/-- A file that is the same in both trees is read alike, unless reading it is refused to one reader
only. -/
theorem contentsBut_outline {refusal refusal' : Refusal} (h : s.SameOutline s') {p : Path}
    (hsame : ∀ place e, s.find here p = .ok (place, e) →
      s'.at? place = s.at? place ∧ refusal' place = refusal place) :
    s'.contentsBut here refusal' p = s.contentsBut here refusal p := by
  have hfind := find_outline h here p
  cases hp : s.find here p with
  | error fault =>
    rw [hp] at hfind
    cases hp' : s'.find here p with
    | ok found =>
      rw [hp'] at hfind
      cases hfind
    | error fault' =>
      rw [hp'] at hfind
      cases hfind
      simp [contentsBut, contents, read, hp, hp']
  | ok found =>
    obtain ⟨place, e⟩ := found
    obtain ⟨hat, hrefusal⟩ := hsame place e hp
    rw [hp] at hfind
    cases hp' : s'.find here p with
    | error fault' =>
      rw [hp'] at hfind
      cases hfind
    | ok found' =>
      obtain ⟨place', e'⟩ := found'
      rw [hp'] at hfind
      obtain ⟨rfl, -⟩ : place' = place ∧ e'.outline = e.outline := by
        simpa [Except.map, outlineAt] using hfind
      have he : e' = e := by
        have hentry := (at?_of_find hp').symm.trans (hat.trans (at?_of_find hp))
        exact Option.some.inj hentry
      simp [contentsBut, contents, read, hp, hp', hrefusal, he]

end Storage

end ClassGraph
