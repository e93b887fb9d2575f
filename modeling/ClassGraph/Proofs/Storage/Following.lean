/-
ClassGraph.Proofs.Storage.Following — following a path segment by segment.

A path is followed through one segment after another, and behind a link
anew, with one link less to go. One equation says what becomes of the first
segment in every case (`resolve_eq`), and one induction has a case for each
(`resolve_induct`): what it says of the outcome of a step it says of the
outcome of the path, so no proof about paths looks at how the two recursions
are nested. The rest of the module is a lemma for each case that goes on.
-/
import ClassGraph.Storage.Resolve

namespace ClassGraph

namespace Storage

variable {s : Storage} {base place : Place} {segments : List Segment} {e : Entry}

/-! ## §1 One segment at a time -/

variable {name : Segment} {rest : List Segment} {follow : Bool} {links : Nat} {next : Entry}
  {target : Path}

/-- What becomes of the first segment. -/
theorem resolve_eq (s : Storage) (follow : Bool) (links : Nat) (base : Place)
    (segments : List Segment) :
    s.resolve follow links base segments =
      match s.at? base, segments with
      | none, _ => .error .missing
      | some e, [] => .ok (.existing base e)
      | some .directory, name :: rest =>
        if Path.isIdle name then s.resolve follow links base rest
        else if name = Path.dotDot then s.resolve follow links base.dropLast rest
        else if maxSegment < name.length then .error .nameTooLong
        else
          match s.at? (base ++ [name]) with
          | none => if rest.isEmpty then .ok (.vacant base name) else .error .missing
          | some (.link target) =>
            if rest.isEmpty && !follow then .ok (.existing (base ++ [name]) (.link target))
            else
              match links with
              | 0 => .error .tooManyLinks
              | links + 1 =>
                s.resolve follow links (if Path.isAbsolute target then [] else base)
                  (cut Path.slash target ++ rest)
          | some _ => s.resolve follow links (base ++ [name]) rest
      | some _, _ :: _ => .error .notDirectory := by
  cases links <;> rw [resolve, resolveWith.eq_def] <;> rfl

theorem resolve_nil (hat : s.at? base = some e) :
    s.resolve follow links base [] = .ok (.existing base e) := by
  rw [resolve_eq, hat]

theorem resolve_idle (hdir : s.at? base = some .directory) (hidle : Path.isIdle name = true) :
    s.resolve follow links base (name :: rest) = s.resolve follow links base rest := by
  rw [resolve_eq, hdir]
  simp only [if_pos hidle]

theorem resolve_up (hdir : s.at? base = some .directory) :
    s.resolve follow links base (Path.dotDot :: rest)
      = s.resolve follow links base.dropLast rest := by
  have hidle : ¬ Path.isIdle Path.dotDot = true := by decide
  rw [resolve_eq, hdir]
  simp only [if_neg hidle, if_true]

theorem resolve_long (hdir : s.at? base = some .directory) (hidle : ¬ Path.isIdle name = true)
    (hup : ¬ name = Path.dotDot) (hlong : maxSegment < name.length) :
    s.resolve follow links base (name :: rest) = .error .nameTooLong := by
  rw [resolve_eq, hdir]
  simp only [if_neg hidle, if_neg hup, if_pos hlong]

/-- A segment is looked for among the entries of a directory. -/
structure Seeks (s : Storage) (base : Place) (name : Segment) : Prop where
  directory : s.at? base = some .directory
  notIdle : ¬ Path.isIdle name = true
  notUp : ¬ name = Path.dotDot
  short : ¬ maxSegment < name.length

/-- What becomes of a segment that is looked for. -/
theorem resolve_of_seeks (hseeks : s.Seeks base name) :
    s.resolve follow links base (name :: rest) =
      match s.at? (base ++ [name]) with
      | none => if rest.isEmpty then .ok (.vacant base name) else .error .missing
      | some (.link target) =>
        if rest.isEmpty && !follow then .ok (.existing (base ++ [name]) (.link target))
        else
          match links with
          | 0 => .error .tooManyLinks
          | links + 1 =>
            s.resolve follow links (if Path.isAbsolute target then [] else base)
              (cut Path.slash target ++ rest)
      | some _ => s.resolve follow links (base ++ [name]) rest := by
  rw [resolve_eq, hseeks.directory]
  simp only [if_neg hseeks.notIdle, if_neg hseeks.notUp, if_neg hseeks.short]

theorem resolve_next (hseeks : s.Seeks base name) (hat : s.at? (base ++ [name]) = some next)
    (hlink : ∀ t, next ≠ .link t) :
    s.resolve follow links base (name :: rest)
      = s.resolve follow links (base ++ [name]) rest := by
  simp only [resolve_of_seeks hseeks, hat]

theorem resolve_link_last (hseeks : s.Seeks base name)
    (hat : s.at? (base ++ [name]) = some (.link target))
    (hlast : (rest.isEmpty && !follow) = true) :
    s.resolve follow links base (name :: rest)
      = .ok (.existing (base ++ [name]) (.link target)) := by
  simp only [resolve_of_seeks hseeks, hat, if_pos hlast]

theorem resolve_link (hseeks : s.Seeks base name)
    (hat : s.at? (base ++ [name]) = some (.link target))
    (hlast : ¬ (rest.isEmpty && !follow) = true) :
    s.resolve follow (links + 1) base (name :: rest)
      = s.resolve follow links (if Path.isAbsolute target then [] else base)
        (cut Path.slash target ++ rest) := by
  simp only [resolve_of_seeks hseeks, hat, if_neg hlast]

/-! ## §2 Segment after segment -/

/-- What holds of the outcome of every step, if it holds of what follows, holds of where segments
lead. -/
@[elab_as_elim]
theorem resolve_induct
    {motive : Nat → Place → List Segment → Except StorageFault Found → Prop}
    (nowhere : ∀ {links base segments}, s.at? base = none →
      motive links base segments (.error .missing))
    (reached : ∀ {links base e}, s.at? base = some e →
      motive links base [] (.ok (.existing base e)))
    (idle : ∀ {links base name rest}, s.at? base = some .directory → Path.isIdle name = true →
      motive links base rest (s.resolve follow links base rest) →
      motive links base (name :: rest) (s.resolve follow links base rest))
    (up : ∀ {links base rest}, s.at? base = some .directory →
      motive links base.dropLast rest (s.resolve follow links base.dropLast rest) →
      motive links base (Path.dotDot :: rest) (s.resolve follow links base.dropLast rest))
    (long : ∀ {links base name rest}, s.at? base = some .directory →
      ¬ Path.isIdle name = true → ¬ name = Path.dotDot → maxSegment < name.length →
      motive links base (name :: rest) (.error .nameTooLong))
    (vacant : ∀ {links base name rest}, s.Seeks base name → s.at? (base ++ [name]) = none →
      rest.isEmpty = true → motive links base (name :: rest) (.ok (.vacant base name)))
    (missing : ∀ {links base name rest}, s.Seeks base name → s.at? (base ++ [name]) = none →
      ¬ rest.isEmpty = true → motive links base (name :: rest) (.error .missing))
    (lastLink : ∀ {links base name rest target}, s.Seeks base name →
      s.at? (base ++ [name]) = some (.link target) → (rest.isEmpty && !follow) = true →
      motive links base (name :: rest) (.ok (.existing (base ++ [name]) (.link target))))
    (tooMany : ∀ {base name rest target}, s.Seeks base name →
      s.at? (base ++ [name]) = some (.link target) → ¬ (rest.isEmpty && !follow) = true →
      motive 0 base (name :: rest) (.error .tooManyLinks))
    (link : ∀ {links base name rest target}, s.Seeks base name →
      s.at? (base ++ [name]) = some (.link target) → ¬ (rest.isEmpty && !follow) = true →
      motive links (if Path.isAbsolute target then [] else base) (cut Path.slash target ++ rest)
        (s.resolve follow links (if Path.isAbsolute target then [] else base)
          (cut Path.slash target ++ rest)) →
      motive (links + 1) base (name :: rest)
        (s.resolve follow links (if Path.isAbsolute target then [] else base)
          (cut Path.slash target ++ rest)))
    (next : ∀ {links base name rest e}, s.Seeks base name → s.at? (base ++ [name]) = some e →
      (∀ target, e ≠ .link target) →
      motive links (base ++ [name]) rest (s.resolve follow links (base ++ [name]) rest) →
      motive links base (name :: rest) (s.resolve follow links (base ++ [name]) rest))
    (blocked : ∀ {links base e name rest}, s.at? base = some e → e ≠ .directory →
      motive links base (name :: rest) (.error .notDirectory))
    (links : Nat) (base : Place) (segments : List Segment) :
    motive links base segments (s.resolve follow links base segments) := by
  -- up to the next link, whatever becomes of the segments behind it
  have hupTo : ∀ links behind, s.resolve follow links = s.resolveWith follow behind →
      (∀ {base name rest target}, s.Seeks base name →
        s.at? (base ++ [name]) = some (.link target) → ¬ (rest.isEmpty && !follow) = true →
        motive links base (name :: rest) (behind (if Path.isAbsolute target then [] else base)
          (cut Path.slash target ++ rest))) →
      ∀ base segments, motive links base segments (s.resolve follow links base segments) := by
    intro links behind hsame hlink base segments
    rw [hsame]
    fun_induction resolveWith s follow behind base segments with
    | case1 _ _ hnone => exact nowhere hnone
    | case2 _ _ hat => exact reached hat
    | case3 _ _ _ hdir hidle ih =>
      rw [← hsame] at ih ⊢
      exact idle hdir hidle ih
    | case4 _ _ hdir _ ih =>
      rw [← hsame] at ih ⊢
      exact up hdir ih
    | case5 _ _ _ hdir hidle hup hlong => exact long hdir hidle hup hlong
    | case6 _ _ _ hdir hidle hup hshort hnone hlast =>
      exact vacant ⟨hdir, hidle, hup, hshort⟩ hnone hlast
    | case7 _ _ _ hdir hidle hup hshort hnone hlast =>
      exact missing ⟨hdir, hidle, hup, hshort⟩ hnone hlast
    | case8 _ _ _ hdir hidle hup hshort _ hat hlast =>
      exact lastLink ⟨hdir, hidle, hup, hshort⟩ hat hlast
    | case9 _ _ _ hdir hidle hup hshort _ hat hlast =>
      exact hlink ⟨hdir, hidle, hup, hshort⟩ hat hlast
    | case10 _ _ _ hdir hidle hup hshort _ hnot hat ih =>
      rw [← hsame] at ih ⊢
      exact next ⟨hdir, hidle, hup, hshort⟩ hat hnot ih
    | case11 _ _ _ _ hnot hat => exact blocked hat hnot
  induction links generalizing base segments with
  | zero => exact hupTo 0 _ rfl tooMany base segments
  | succ links ih =>
    have hlink : ∀ {base name rest target}, s.Seeks base name →
        s.at? (base ++ [name]) = some (.link target) → ¬ (rest.isEmpty && !follow) = true →
        motive (links + 1) base (name :: rest) (s.resolve follow links
          (if Path.isAbsolute target then [] else base) (cut Path.slash target ++ rest)) :=
      fun hseeks hat hlast => link hseeks hat hlast (ih _ _)
    exact hupTo (links + 1) _ rfl hlink base segments

/-- What is reached lies at its place. -/
theorem at?_of_resolve {follow : Bool} {links : Nat}
    (h : s.resolve follow links base segments = .ok (.existing place e)) :
    s.at? place = some e := by
  induction links, base, segments using resolve_induct with
  | reached hat =>
    cases h
    exact hat
  | idle _ _ ih => exact ih h
  | up _ ih => exact ih h
  | lastLink _ hat _ =>
    cases h
    exact hat
  | link _ _ _ ih => exact ih h
  | next _ _ _ ih => exact ih h
  | _ => cases h

theorem exists_at?_of_resolve {follow : Bool} {links : Nat} {found : Found}
    (h : s.resolve follow links base segments = .ok found) : ∃ e, s.at? base = some e := by
  cases hat : s.at? base with
  | some e => exact ⟨e, rfl⟩
  | none =>
    rw [resolve_eq, hat] at h
    cases h


end Storage

end ClassGraph
