/-
ClassGraph.Proofs.Path.Below — what is put below a root is found there again.

A path below a root is compared by components, so the root may be spelled with
idle segments, a slash at its end or parent segments; what follows it keeps
its own text. The main statements:

  * `below?_extend`       — a plain path put below a root is what lies below
                            it;
  * `pathBelow_eq_extend` — descending by segments is putting them below at
                            once;
  * `cut_ofText`          — a path made of text is cut where the text is.
-/
import ClassGraph.Proofs.Text.Pieces
import ClassGraph.Walk

namespace ClassGraph.Path

variable {root q : Path} {idle segments : List Segment}

/-! ## §1 Idle segments -/

theorem isIdle_nil : isIdle [] = true := rfl

theorem names_append (u v : List Segment) : names (u ++ v) = names u ++ names v :=
  List.filter_append u v

/-- The names of some segments are read off the front of them; idle ones behind the last name stay
in front of what follows. -/
theorem after_names_append (lead rest : List Segment) :
    ∃ idle, (∀ s ∈ idle, isIdle s = true) ∧
      after (names lead) (lead ++ rest) = some (idle ++ rest) := by
  induction lead with
  | nil => exact ⟨[], by simp, by simp [names, after]⟩
  | cons s lead ih =>
    cases hs : isIdle s with
    | false =>
      obtain ⟨idle, hidle, hafter⟩ := ih
      refine ⟨idle, hidle, ?_⟩
      have hnames : names (s :: lead) = s :: names lead := by simp [names, hs]
      rw [hnames, List.cons_append, after, if_neg (by simp [hs]), if_pos rfl, hafter]
    | true =>
      have hnames : names (s :: lead) = names lead := by simp [names, hs]
      rw [hnames]
      cases hn : names lead with
      | nil =>
        refine ⟨s :: lead, ?_, by rw [after]⟩
        have hlead : ∀ s ∈ lead, isIdle s = true := by simpa [names] using hn
        exact List.forall_mem_cons.2 ⟨hs, hlead⟩
      | cons w ws =>
        obtain ⟨idle, hidle, hafter⟩ := ih
        rw [hn] at hafter
        refine ⟨idle, hidle, ?_⟩
        rw [List.cons_append, after, if_pos hs, hafter]

theorem dropIdleStart_append (hidle : ∀ s ∈ idle, isIdle s = true)
    (h : ∀ s ∈ segments, isIdle s = false) : dropIdleStart (idle ++ segments) = segments := by
  rw [dropIdleStart, List.dropWhile_append_of_pos hidle]
  cases segments with
  | nil => rfl
  | cons s rest => simp [h s (List.mem_cons_self ..)]

theorem dropIdleEnd_eq_self (h : ∀ s ∈ segments, isIdle s = false) :
    dropIdleEnd segments = segments := by
  have hnone : ∀ s ∈ ([] : List Segment), isIdle s = true := by simp
  have hrev := dropIdleStart_append hnone fun s hs => h s (List.mem_reverse.1 hs)
  rw [List.nil_append, dropIdleStart] at hrev
  rw [dropIdleEnd, hrev, List.reverse_reverse]

/-! ## §2 A plain path below a root -/

/-- A path without idle segments, and so without a slash at either end. -/
def IsPlain (q : Path) : Prop := ∀ s ∈ cut slash q, isIdle s = false

theorem IsPlain.not_isAbsolute (h : IsPlain q) : isAbsolute q = false := by
  cases q with
  | nil => rfl
  | cons b q =>
    by_cases hb : b = slash
    · have hmem : [] ∈ cut slash (b :: q) := by
        rw [hb, cut_cons_sep]
        exact List.mem_cons_self ..
      have hfirst := h [] hmem
      rw [isIdle_nil] at hfirst
      cases hfirst
    · simp [isAbsolute, hb]

theorem ne_nil_of_isAbsolute (h : isAbsolute root = true) : root ≠ [] := by
  rintro rfl
  cases h

/-- How a path opens is read off its segments. -/
theorem opening_of_cut {p : Path} {first : Segment} (hp : p ≠ [])
    (h : cut slash p = first :: segments) :
    opening p = if first = [] then (some .root, segments)
      else if first = dot then (some .here, segments) else (none, first :: segments) := by
  obtain ⟨b, p, rfl⟩ := List.exists_cons_of_ne_nil hp
  by_cases hb : b = slash
  · rw [hb, cut_cons_sep] at h
    obtain ⟨rfl, rfl⟩ := List.cons_eq_cons.1 h
    rw [opening, if_pos hb, if_pos rfl]
  · have hfirst : first ≠ [] := by
      obtain ⟨piece, rest, -, hcut⟩ := cut_append_of_not_mem (u := [b])
        (fun hmem => hb (List.mem_singleton.1 hmem).symm) p
      rw [List.singleton_append, h] at hcut
      rw [(List.cons_eq_cons.1 hcut).1]
      exact List.cons_ne_nil b piece
    rw [opening, if_neg hb, h, if_neg hfirst]

/-- The segments of a path below a root are those of the root, but for an idle one at their end,
and those of the path. -/
theorem cut_extend (hroot : root ≠ []) (hq : isAbsolute q = false) :
    ∃ first lead idle, (∀ s ∈ idle, isIdle s = true) ∧
      cut slash root = first :: (lead ++ idle) ∧
      cut slash (extend root q) = first :: (lead ++ cut slash q) := by
  obtain ⟨u, b, rfl⟩ : ∃ u b, root = u ++ [b] :=
    ⟨_, _, (List.dropLast_concat_getLast hroot).symm⟩
  have hpieces : ∀ p, ∃ first lead, cut slash p = first :: lead := fun p =>
    List.exists_cons_of_ne_nil (cut_ne_nil slash p)
  rw [extend, if_neg (by simp [hq]), List.getLast?_concat]
  by_cases hb : b = slash
  · obtain ⟨first, lead, hlead⟩ := hpieces u
    refine ⟨first, lead, [[]], by simp [isIdle_nil], ?_, ?_⟩
    · rw [hb, cut_append_cons, hlead]
      rfl
    · rw [hb, if_pos (by simp), List.append_assoc, List.singleton_append, cut_append_cons, hlead]
      rfl
  · obtain ⟨first, lead, hlead⟩ := hpieces (u ++ [b])
    refine ⟨first, lead, [], by simp, by simpa using hlead, ?_⟩
    rw [if_neg (by simp [hb]), cut_append_cons, hlead]
    rfl

/-- A path below a root opens as the root does. -/
theorem opening_extend (hroot : root ≠ []) (hq : isAbsolute q = false) :
    ∃ start lead idle, (∀ s ∈ idle, isIdle s = true) ∧ ¬ (start = none ∧ names lead = []) ∧
      opening root = (start, lead ++ idle) ∧
      opening (extend root q) = (start, lead ++ cut slash q) := by
  obtain ⟨first, lead, idle, hidle, hcut, hextend⟩ := cut_extend hroot hq
  have hne : extend root q ≠ [] := by
    rw [extend, if_neg (by simp [hq])]
    split <;> simp [hroot]
  rw [opening_of_cut hroot hcut, opening_of_cut hne hextend]
  by_cases hfirst : first = []
  · exact ⟨some .root, lead, idle, hidle, by simp, if_pos hfirst, if_pos hfirst⟩
  · rw [if_neg hfirst, if_neg hfirst]
    by_cases hdot : first = dot
    · exact ⟨some .here, lead, idle, hidle, by simp, if_pos hdot, if_pos hdot⟩
    · have hname : isIdle first = false := by simp [isIdle, hfirst, hdot]
      exact ⟨none, first :: lead, idle, hidle, by simp [names, hname], if_neg hdot, if_neg hdot⟩

theorem below?_extend (hroot : root ≠ []) (hq : IsPlain q) :
    below? root (extend root q) = some q := by
  obtain ⟨start, lead, idle, hidle, hstart, hopen, hextend⟩ :=
    opening_extend hroot hq.not_isAbsolute
  obtain ⟨idle', hidle', hafter⟩ := after_names_append lead (cut slash q)
  have hnames : names (lead ++ idle) = names lead := by
    have hnone : names idle = [] := List.filter_eq_nil_iff.2 fun s hs => by simp [hidle s hs]
    rw [names_append, hnone, List.append_nil]
  have hrest : join [slash] (dropIdleEnd (dropIdleStart (idle' ++ cut slash q))) = q := by
    rw [dropIdleStart_append hidle' hq, dropIdleEnd_eq_self hq, join_cut]
  simp only [below?, hopen, hextend, hnames]
  rw [if_neg hstart, if_true, hafter, Option.map_some, hrest]

/-- Nothing is left of a root below itself. -/
theorem below?_self (hroot : isAbsolute root = true) : below? root root = some [] := by
  cases root with
  | nil => cases hroot
  | cons b r =>
    have hb : b = slash := by simpa [isAbsolute] using hroot
    subst hb
    obtain ⟨idle, hidle, hafter⟩ := after_names_append (cut slash r) []
    have hrest : dropIdleStart (idle ++ []) = [] := dropIdleStart_append hidle (by simp)
    simp only [List.append_nil] at hafter hrest
    simp [below?, opening, hafter, hrest, dropIdleEnd]

/-! ## §3 Descending by segments -/

/-- Relative paths are put below a root behind the same text. -/
theorem extend_eq_append (root : Path) :
    ∃ w, ∀ q, isAbsolute q = false → extend root q = w ++ q := by
  by_cases h : (root.isEmpty || root.getLast? == some slash) = true
  · refine ⟨root, fun q hq => ?_⟩
    rw [extend, if_neg (by simp [hq]), if_pos h]
  · refine ⟨root ++ [slash], fun q hq => ?_⟩
    rw [extend, if_neg (by simp [hq]), if_neg h]
    simp

theorem isAbsolute_append {a : Path} (ha : a ≠ []) (hslash : slash ∉ a) (b : Path) :
    isAbsolute (a ++ b) = false := by
  obtain ⟨c, a, rfl⟩ := List.exists_cons_of_ne_nil ha
  have hc : c ≠ slash := fun e => hslash (e ▸ List.mem_cons_self ..)
  simp [isAbsolute, hc]

/-- Below a directory below a root. -/
theorem extend_extend {a b : Path} (ha : a ≠ []) (hslash : slash ∉ a)
    (hb : isAbsolute b = false) : extend (extend root a) b = extend root (a ++ slash :: b) := by
  obtain ⟨w, hw⟩ := extend_eq_append root
  have hrel : isAbsolute a = false := by simpa using isAbsolute_append ha hslash []
  have hlast : a.getLast? ≠ some slash := fun hl => hslash (List.mem_of_getLast? hl)
  rw [hw a hrel, hw _ (isAbsolute_append ha hslash _), extend, if_neg (by simp [hb]),
    if_neg (by simp [ha, hlast]), List.append_assoc]

theorem pathBelow_eq_extend (hne : segments ≠ [])
    (h : ∀ s ∈ segments, s ≠ [] ∧ slash ∉ s) :
    Walk.pathBelow root segments = extend root (join [slash] segments) := by
  induction segments generalizing root with
  | nil => exact absurd rfl hne
  | cons s rest ih =>
    obtain ⟨hs, hslash⟩ := h s (List.mem_cons_self ..)
    have hrest := fun t ht => h t (List.mem_cons_of_mem _ ht)
    by_cases hr : rest = []
    · subst hr
      rfl
    · have hbelow : isAbsolute (join [slash] rest) = false := by
        obtain ⟨next, others, rfl⟩ := List.exists_cons_of_ne_nil hr
        obtain ⟨hnext, hnextSlash⟩ := hrest next (List.mem_cons_self ..)
        cases others with
        | nil => simpa using isAbsolute_append hnext hnextSlash []
        | cons other others =>
          rw [join_cons (by simp), List.append_assoc]
          exact isAbsolute_append hnext hnextSlash _
      rw [join_cons hr, List.append_assoc, List.singleton_append,
        ← extend_extend hs hslash hbelow, ← ih hr hrest]
      rfl

/-! ## §4 Paths made of text -/

/-- The bytes of a character are the character itself, or lie above all of ASCII. -/
theorem toNat_of_mem_encodeChar {b : UInt8} {c : Char} (h : b ∈ Utf8.encodeChar c) :
    b.toNat = c.toNat ∨ 0x80 ≤ b.toNat := by
  have hv := Utf8.toNat_valid c
  simp only [Utf8.encodeChar] at h
  split at h
  · left
    rw [List.mem_singleton.1 h, Utf8.toNat_toUInt8 (by omega)]
  · right
    split at h
    · simp only [List.mem_cons, List.not_mem_nil, or_false] at h
      rcases h with rfl | rfl <;> rw [Utf8.toNat_toUInt8 (by omega)] <;> omega
    · split at h
      · simp only [List.mem_cons, List.not_mem_nil, or_false] at h
        rcases h with rfl | rfl | rfl <;> rw [Utf8.toNat_toUInt8 (by omega)] <;> omega
      · simp only [List.mem_cons, List.not_mem_nil, or_false] at h
        rcases h with rfl | rfl | rfl | rfl <;> rw [Utf8.toNat_toUInt8 (by omega)] <;> omega

theorem slash_mem_encodeChar {c : Char} (h : slash ∈ Utf8.encodeChar c) : c = '/' := by
  have hslash : slash.toNat = 0x2F := rfl
  have hnat := toNat_of_mem_encodeChar h
  exact Char.toNat_inj.1 (show c.toNat = 0x2F by omega)

/-- A path made of text is cut where the text is. -/
theorem cut_ofText (s : Text) : cut slash (ofText s) = (cut '/' s).map ofText := by
  induction s with
  | nil => rfl
  | cons c s ih =>
    have hcons : ofText (c :: s) = Utf8.encodeChar c ++ ofText s := List.flatMap_cons
    rw [hcons]
    by_cases hc : c = '/'
    · have hbytes : Utf8.encodeChar c = [slash] := by
        rw [hc]
        decide
      rw [hbytes, hc, cut_cons_sep, List.singleton_append, cut_cons_sep, ih]
      rfl
    · have hbytes : slash ∉ Utf8.encodeChar c := fun h => hc (slash_mem_encodeChar h)
      obtain ⟨first, rest, hfirst, hcut⟩ := cut_append_of_not_mem hbytes (ofText s)
      have htext : '/' ∉ [c] := fun h => hc (List.mem_singleton.1 h).symm
      obtain ⟨first', rest', hfirst', hcut'⟩ := cut_append_of_not_mem htext s
      rw [ih, hfirst', List.map_cons] at hfirst
      obtain ⟨rfl, rfl⟩ := List.cons_eq_cons.1 hfirst
      rw [List.singleton_append] at hcut'
      rw [hcut, hcut']
      rfl

theorem ofText_injective {s t : Text} (h : ofText s = ofText t) : s = t := by
  have hs := Utf8.decode_encode s
  rw [show Utf8.encode s = Utf8.encode t from h, Utf8.decode_encode] at hs
  exact (Except.ok.inj hs).symm

/-- The only idle text is none at all and a lone dot. -/
theorem isIdle_ofText {s : Text} (hne : s ≠ []) (hdot : s ≠ ['.']) : isIdle (ofText s) = false := by
  have hnil : ofText s ≠ [] := fun h => hne (ofText_injective (t := []) h)
  have hlone : ofText s ≠ dot := fun h => hdot (ofText_injective (t := ['.']) h)
  simp [isIdle, hnil, hlone]

end ClassGraph.Path
