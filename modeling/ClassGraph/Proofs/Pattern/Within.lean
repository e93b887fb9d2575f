/-
ClassGraph.Proofs.Pattern.Within — reading a pattern that stands inside a
group.

A selecting pattern is put into a group before it is read. What is around
makes no difference to how it is read: the reader inside goes through the same
states as one that reads the pattern on its own, with the groups around below
its own (`within`). Most steps only hand the groups around on; they are stated
together with the count of characters taken in advance, which they hand on as
well (`amid`), so that each of them gives both facts. There are two ways out
of the group. A pattern may close it where on its own it would be refused
(`Closes`), and a step that looks ahead might see the closing, but never
decides by it (`step_append_closing`). The main statements:

  * `step_alike` — a step inside is the step outside, unless it closes the
    group;
  * `run_within` — a text that closes no group but its own leaves the reader
    inside where it leaves the reader outside.
-/
import ClassGraph.Pattern.Reader

namespace ClassGraph

namespace Reader

variable {r : Reader} {c : Char} {rest : Text} {around : List (Group × Flags)} {n : Nat}

/-! ## §1 Groups around -/

/-- The reader with more groups around, and with `n` characters taken in advance. -/
def amid (around : List (Group × Flags)) (n : Nat) (r : Reader) : Reader :=
  { r with outer := r.outer ++ around, taken := n }

@[simp] theorem flags_amid (r : Reader) : (r.amid around n).flags = r.flags := rfl

@[simp] theorem names_amid (r : Reader) : (r.amid around n).names = r.names := rfl

@[simp] theorem group_amid (r : Reader) : (r.amid around n).group = r.group := rfl

@[simp] theorem brackets_amid (r : Reader) : (r.amid around n).brackets = r.brackets := rfl

/-! ## §2 Steps that take nothing in advance -/

theorem repeated_amid (r : Reader) (least : Nat) (most : Option Nat) (mode : Mode) :
    (r.amid around n).repeated least most mode
      = (r.repeated least most mode).map (amid around n) := by
  simp only [repeated, group_amid]
  cases r.group.repeatLast least most <;> rfl

theorem addMember_amid (r : Reader) (part : SetPart) :
    (r.amid around n).addMember part = (r.addMember part).amid around n := by
  simp only [addMember, brackets_amid]
  split <;> rfl

theorem deliver_amid (r : Reader) (slot : Slot) (a : Atom) :
    (r.amid around n).deliver slot a = (r.deliver slot a).map (amid around n) := by
  cases slot with
  | branch =>
    simp only [deliver, flags_amid]
    cases a.pattern r.flags <;> rfl
  | member => rfl
  | rangeEnd low =>
    simp only [deliver, flags_amid, addMember_amid]
    repeat' split
    all_goals rfl

theorem deliverNumber_amid (r : Reader) (slot : Slot) (m : Nat) (asByte : Bool) :
    (r.amid around n).deliverNumber slot m asByte
      = (r.deliverNumber slot m asByte).map (amid around n) := by
  unfold deliverNumber
  split
  · exact deliver_amid r slot _
  · rfl

theorem deliverNamed_amid (r : Reader) (slot : Slot) (negated : Bool) (set : Option CharSet) :
    (r.amid around n).deliverNamed slot negated set
      = (r.deliverNamed slot negated set).map (amid around n) := by
  cases set with
  | none => rfl
  | some set => exact deliver_amid r slot _

theorem settingStep_amid (r : Reader) (seen : Text) (off dangling : Bool) (flags : Flags)
    (c : Char) : (r.amid around n).settingStep seen off dangling flags c
      = (r.settingStep seen off dangling flags c).map (amid around n) := by
  unfold settingStep
  repeat' split
  all_goals rfl

theorem askedStep_amid (r : Reader) (c : Char) :
    (r.amid around n).askedStep c = (r.askedStep c).map (amid around n) := by
  unfold askedStep
  repeat' split
  all_goals first | rfl | exact settingStep_amid r _ _ _ _ c

theorem namingStep_amid (r : Reader) (name : Text) (c : Char) :
    (r.amid around n).namingStep name c = (r.namingStep name c).map (amid around n) := by
  unfold namingStep
  rw [names_amid]
  split
  · by_cases h : (name.isEmpty || r.names.contains name) = true
    · rw [if_pos h, if_pos h]
      rfl
    · rw [if_neg h, if_neg h]
      rfl
  · split <;> rfl

theorem bounded_amid (r : Reader) (least : Nat) (most : Option Nat) :
    (r.amid around n).bounded least most = (r.bounded least most).map (amid around n) := by
  unfold bounded
  split
  · exact repeated_amid r least most _
  · rfl

theorem countingStep_amid (r : Reader) (low? open? : Option Nat) (blanks : Bool) (c : Char) :
    (r.amid around n).countingStep low? open? blanks c
      = (r.countingStep low? open? blanks c).map (amid around n) := by
  unfold countingStep
  repeat' split
  all_goals first | rfl | exact bounded_amid r _ _

theorem escapedStep_amid (r : Reader) (slot : Slot) (c : Char) (rest : Text) :
    (r.amid around n).escapedStep slot c rest
      = (r.escapedStep slot c rest).map (amid around n) := by
  unfold escapedStep
  repeat' split
  all_goals first | rfl | exact deliver_amid r slot _

theorem placeStep_amid (r : Reader) (name : Text) (c : Char) :
    (r.amid around n).placeStep name c = (r.placeStep name c).map (amid around n) := by
  unfold placeStep
  rw [deliver_amid]
  split
  · rfl
  split
  · cases r.deliver .branch (.anchor (.word .boundary)) with
    | error e => rfl
    | ok r => exact countingStep_amid r none none false c
  split
  · cases place? name.reverse with
    | none => rfl
    | some place => exact deliver_amid r .branch _
  · rfl

theorem hexStep_amid (r : Reader) (slot : Slot) (left : Nat) (asByte : Bool) (value : Nat)
    (c : Char) : (r.amid around n).hexStep slot left asByte value c
      = (r.hexStep slot left asByte value c).map (amid around n) := by
  simp only [hexStep]
  repeat' split
  all_goals first | rfl | exact deliverNumber_amid r slot _ _

theorem hexBraceStep_amid (r : Reader) (slot : Slot) (value? : Option Nat) (c : Char) :
    (r.amid around n).hexBraceStep slot value? c
      = (r.hexBraceStep slot value? c).map (amid around n) := by
  unfold hexBraceStep
  repeat' split
  all_goals first | rfl | exact deliverNumber_amid r slot _ _

/-! ## §3 Steps that look ahead -/

/-- The reader with more groups around. -/
def within (around : List (Group × Flags)) (r : Reader) : Reader :=
  { r with outer := r.outer ++ around }

@[simp] theorem flags_within (r : Reader) : (r.within around).flags = r.flags := rfl

@[simp] theorem brackets_within (r : Reader) : (r.within around).brackets = r.brackets := rfl

@[simp] theorem mode_within (r : Reader) : (r.within around).mode = r.mode := rfl

/-- The outcome `y` of a step is the outcome `x` with more groups around. -/
structure Alike (around : List (Group × Flags)) (rest : Text) (x y : Except PatternError Reader) :
    Prop where
  within : y = x.map (within around)
  /-- No more characters are taken in advance than follow. -/
  taken : ∀ r, x = .ok r → r.taken ≤ rest.length

theorem amid_nil (r : Reader) : r.amid [] r.taken = r := by
  simp [amid]

/-- A step that hands on the count of characters taken in advance keeps it. -/
theorem taken_of_amid {f : Reader → Except PatternError Reader}
    (h : ∀ around n, f (r.amid around n) = (f r).map (amid around n)) :
    ∀ r', f r = .ok r' → r'.taken = r.taken := by
  intro r' hr
  have hself : f r = (f r).map (amid [] r.taken) := by rw [← h, amid_nil]
  rw [hr, Except.map, Except.ok.injEq] at hself
  rw [hself]
  rfl

/-- A step that takes nothing in advance is alike inside of any groups. -/
theorem Alike.of_amid {f : Reader → Except PatternError Reader}
    (h : ∀ around n, f (r.amid around n) = (f r).map (amid around n)) (hr : r.taken = 0) :
    Alike around rest (f r) (f (r.within around)) := by
  have htaken := taken_of_amid h
  constructor
  case within =>
    have hwithin : r.within around = r.amid around r.taken := rfl
    rw [hwithin, h]
    cases hx : f r with
    | error e => rfl
    | ok r' =>
      rw [← htaken r' hx]
      rfl
  case taken =>
    intro r' hx
    rw [htaken r' hx, hr]
    exact Nat.zero_le _

theorem Alike.ok (h : r.taken ≤ rest.length) : Alike around rest (.ok r) (.ok (r.within around)) :=
  ⟨rfl, fun _ hr => Except.ok.inj hr ▸ h⟩

theorem Alike.error (e : PatternError) : Alike around rest (.error e) (.error e) :=
  ⟨rfl, fun _ hr => by cases hr⟩

theorem deliver_alike (hr : r.taken = 0) (slot : Slot) (a : Atom) :
    Alike around rest (r.deliver slot a) ((r.within around).deliver slot a) :=
  .of_amid (f := fun r => r.deliver slot a) (fun _ _ => deliver_amid r slot a) hr

theorem addMember_within (around : List (Group × Flags)) (r : Reader) (part : SetPart) :
    (r.within around).addMember part = (r.addMember part).within around := by
  simp only [addMember, brackets_within]
  split <;> rfl

theorem taken_addMember (r : Reader) (part : SetPart) : (r.addMember part).taken = r.taken := by
  unfold addMember
  split <;> rfl

/-- The ASCII class whose name and closing a text begins with. -/
def asciiNamed? (negated : Bool) (rest : Text) : Option (CharSet × Bool × Nat) :=
  let name := rest.takeWhile (· != ':')
  if [':', ']'].isPrefixOf (rest.dropWhile (· != ':')) then
    (CharSet.ascii? name).map fun s => (s, negated, name.length + (if negated then 4 else 3))
  else none

theorem asciiAhead?_colon (rest : Text) : asciiAhead? (':' :: rest)
    = if rest.head? == some '^' then asciiNamed? true (rest.drop 1) else asciiNamed? false rest := by
  have hdrop : ∀ s : Text, s.drop (s.takeWhile (· != ':')).length = s.dropWhile (· != ':') := by
    intro s
    have hname := @List.drop_left _ (s.takeWhile (· != ':')) (s.dropWhile (· != ':'))
    rwa [List.takeWhile_append_dropWhile] at hname
  unfold asciiAhead? asciiNamed?
  simp only
  split
  · next h => simp only [h, if_true, hdrop]
  · next h =>
    rw [Bool.not_eq_true] at h
    simp only [h, hdrop, Bool.false_eq_true, if_false]

theorem length_asciiNamed? {set : CharSet} {negated other : Bool}
    (h : asciiNamed? negated rest = some (set, other, n)) :
    n ≤ rest.length + (if negated then 2 else 1) := by
  unfold asciiNamed? at h
  simp only at h
  split at h
  case isFalse => cases h
  case isTrue hclosing =>
    obtain ⟨_, -, heq⟩ := Option.map_eq_some_iff.1 h
    obtain ⟨-, -, rfl⟩ := by simpa only [Prod.mk.injEq] using heq
    have hname := congrArg List.length
      (List.takeWhile_append_dropWhile (p := (· != ':')) (l := rest))
    have hclosed := (List.isPrefixOf_iff_prefix.1 hclosing).length_le
    rw [List.length_append] at hname
    simp only [List.length_cons, List.length_nil] at hclosed
    split <;> omega

theorem length_asciiAhead? {set : CharSet} {negated : Bool}
    (h : asciiAhead? rest = some (set, negated, n)) : n ≤ rest.length := by
  match rest with
  | [] => cases h
  | c :: rest =>
    by_cases hc : c = ':'
    · subst hc
      rw [asciiAhead?_colon] at h
      split at h
      · next hhead =>
        have hlength := length_asciiNamed? h
        cases rest with
        | nil => cases hhead
        | cons d rest => simpa using hlength
      · simpa using length_asciiNamed? h
    · simp [asciiAhead?, hc] at h

theorem bracketStep_alike (hr : r.taken = 0) (c : Char) (rest : Text) :
    Alike around rest (r.bracketStep c rest) ((r.within around).bracketStep c rest) := by
  have hnone : r.taken ≤ rest.length := hr ▸ Nat.zero_le _
  unfold bracketStep
  simp only [brackets_within, flags_within, addMember_within]
  cases r.brackets with
  | nil => exact .error _
  | cons b outer =>
    simp only
    split
    · cases hahead : asciiAhead? rest with
      | none => exact .ok hnone
      | some found =>
        -- the name of the class and its closing are taken in advance
        obtain ⟨set, negated, n⟩ := found
        simp only
        cases r.flags.finish negated set with
        | error e => exact .error e
        | ok set => exact .ok (length_asciiAhead? hahead)
    split
    · cases b.close r.flags with
      | error e => exact .error e
      | ok part =>
        simp only [Except.map]
        split
        · exact .ok hnone
        · have hpart := taken_addMember { r with brackets := outer } part
          have hwithin := addMember_within around { r with brackets := outer } part
          refine hwithin ▸ .ok ?_
          rw [hpart]
          exact hnone
    split
    · exact .ok hnone
    cases SetOp.ofDoubled? c with
    | none => exact deliver_alike hr _ _
    | some op =>
      simp only
      split
      · next hnext =>
        refine .ok ?_
        cases rest with
        | nil => cases hnext
        | cons d rest => exact Nat.succ_le_succ (Nat.zero_le _)
      · exact deliver_alike hr _ _

theorem frontStep_alike (hr : r.taken = 0) (c : Char) (rest : Text) :
    Alike around rest (r.frontStep c rest) ((r.within around).frontStep c rest) := by
  unfold frontStep
  simp only [brackets_within, addMember_within]
  split
  · exact .ok (by simp [taken_addMember, hr])
  split
  · exact .ok (by simp [taken_addMember, hr])
  · exact bracketStep_alike hr c rest

theorem bracketStartStep_alike (hr : r.taken = 0) (c : Char) (rest : Text) :
    Alike around rest (r.bracketStartStep c rest) ((r.within around).bracketStartStep c rest) := by
  unfold bracketStartStep
  simp only [brackets_within]
  cases r.brackets with
  | nil => exact .error _
  | cons b outer =>
    simp only
    split
    · exact .ok (by simp [hr])
    · exact frontStep_alike hr c rest

theorem afterAtomStep_alike (hr : r.taken = 0) (a : Atom) (c : Char) (rest : Text) :
    Alike around rest (r.afterAtomStep a c rest) ((r.within around).afterAtomStep a c rest) := by
  unfold afterAtomStep
  simp only [flags_within, addMember_within]
  split
  · cases a.char? r.flags with
    | none => exact .error _
    | some low => exact .ok (by simp [hr])
  · cases a.member r.flags with
    | error e => exact .error e
    | ok set =>
      exact bracketStep_alike (by rw [taken_addMember, hr]) c rest

theorem repeated_alike (hr : r.taken = 0) (least : Nat) (most : Option Nat) (rest : Text) :
    Alike around rest ((r.repeated least most .plain).map (reluctant rest))
      (((r.within around).repeated least most .plain).map (reluctant rest)) := by
  have hgroup : (r.within around).group = r.group := rfl
  unfold repeated
  rw [hgroup]
  cases r.group.repeatLast least most with
  | error e => exact .error e
  | ok group =>
    simp only [Except.map, reluctant]
    split
    · next hnext =>
      refine .ok ?_
      cases rest with
      | nil => cases hnext
      | cons d rest => exact Nat.succ_le_succ (Nat.zero_le _)
    · exact .ok (by simp [hr])

theorem plainStep_alike (hr : r.taken = 0) (h : c = ')' → r.outer ≠ []) (rest : Text) :
    Alike around rest (r.plainStep c rest) ((r.within around).plainStep c rest) := by
  have hnone : r.taken ≤ rest.length := hr ▸ Nat.zero_le _
  unfold plainStep
  split
  case h_2 =>
    obtain ⟨⟨group, flags⟩, outer, houter⟩ := List.exists_cons_of_ne_nil (h rfl)
    simp only [leave, within, houter, List.cons_append]
    exact .ok hnone
  case h_5 | h_6 | h_7 => exact repeated_alike hr _ _ rest
  case h_1 | h_3 | h_4 | h_8 | h_9 => exact .ok hnone
  all_goals exact deliver_alike hr _ _

/-! ## §4 Every step -/

/-- A character is read the same inside a group, unless it leaves the reader among those around. -/
theorem act_alike (hr : r.taken = 0)
    (h : c = ')' → (r.mode = .plain ∨ r.mode = .counted) → r.outer ≠ []) (rest : Text) :
    Alike around rest (r.act c rest) ((r.within around).act c rest) := by
  have hnone : r.taken ≤ rest.length := hr ▸ Nat.zero_le _
  unfold act
  rw [mode_within]
  cases hmode : r.mode with
  | plain => exact plainStep_alike hr (fun hc => h hc (.inl hmode)) rest
  | counted =>
    simp only
    split
    · exact .ok hnone
    · exact plainStep_alike hr (fun hc => h hc (.inr hmode)) rest
  | opened =>
    simp only
    split
    · exact .ok hnone
    · exact plainStep_alike (r := r.enter r.flags) hr (fun _ => List.cons_ne_nil _ _) rest
  | asked => exact .of_amid (f := fun r => r.askedStep c) (fun _ _ => askedStep_amid r c) hr
  | askedName =>
    simp only
    split
    · exact .ok hnone
    · exact .error _
  | naming name =>
    exact .of_amid (f := fun r => r.namingStep name c) (fun _ _ => namingStep_amid r name c) hr
  | setting seen off dangling flags =>
    exact .of_amid (f := fun r => r.settingStep seen off dangling flags c)
      (fun _ _ => settingStep_amid r seen off dangling flags c) hr
  | counting low? open? blanks =>
    exact .of_amid (f := fun r => r.countingStep low? open? blanks c)
      (fun _ _ => countingStep_amid r low? open? blanks c) hr
  | escaped slot =>
    exact .of_amid (f := fun r => r.escapedStep slot c rest)
      (fun _ _ => escapedStep_amid r slot c rest) hr
  | placeBrace => exact .ok hnone
  | placeName name =>
    exact .of_amid (f := fun r => r.placeStep name c) (fun _ _ => placeStep_amid r name c) hr
  | hexStart slot digits =>
    simp only
    split
    · exact .ok hnone
    · exact .of_amid (f := fun r => r.hexStep slot digits (digits == 2) 0 c)
        (fun _ _ => hexStep_amid r slot digits (digits == 2) 0 c) hr
  | hexDigits slot left asByte value =>
    exact .of_amid (f := fun r => r.hexStep slot left asByte value c)
      (fun _ _ => hexStep_amid r slot left asByte value c) hr
  | hexBrace slot value? =>
    exact .of_amid (f := fun r => r.hexBraceStep slot value? c)
      (fun _ _ => hexBraceStep_amid r slot value? c) hr
  | nameStart slot negated =>
    simp only
    split
    · exact .ok hnone
    split
    · exact .error _
    · exact .of_amid (f := fun r => r.deliverNamed slot negated (CharSet.named? [c]))
        (fun _ _ => deliverNamed_amid r slot negated _) hr
  | nameBrace slot negated name =>
    simp only
    split
    · exact .of_amid (f := fun r => r.deliverNamed slot negated (CharSet.braced? name.reverse))
        (fun _ _ => deliverNamed_amid r slot negated _) hr
    · exact .ok hnone
  | bracketStart => exact bracketStartStep_alike hr c rest
  | bracketFront => exact frontStep_alike hr c rest
  | bracket => exact bracketStep_alike hr c rest
  | bracketAtom a => exact afterAtomStep_alike hr a c rest
  | rangeEnd low =>
    simp only
    split
    · exact .ok hnone
    · exact deliver_alike hr _ _

/-- The reader is at the end of a branch, with no group open. -/
def Outside (r : Reader) : Prop := (r.mode = .plain ∨ r.mode = .counted) ∧ r.outer = []

/-- A character closes a group that was not opened. -/
structure Closes (r : Reader) (c : Char) : Prop where
  eq : c = ')'
  outside : r.Outside
  comment : r.comment = false
  taken : r.taken = 0

theorem step_eq_act (hcomment : r.comment = false) (htaken : r.taken = 0)
    (hc : isBlank c = false ∧ c ≠ '#') (rest : Text) : r.step c rest = r.act c rest := by
  simp [step, htaken, hcomment, hc]

theorem act_closing (h : r.mode = .plain ∨ r.mode = .counted) (rest : Text) :
    r.act ')' rest = r.leave := by
  rcases h with h | h <;> simp [act, h, plainStep]

/-- On its own, a pattern is refused where it closes a group that was not opened. -/
theorem Closes.step_eq (h : r.Closes c) (rest : Text) : r.step c rest = .error .unopenedGroup := by
  obtain ⟨rfl, ⟨hmode, houter⟩, hcomment, htaken⟩ := h
  rw [step_eq_act hcomment htaken (by decide), act_closing hmode, leave, houter]

/-- **A step is the same inside a group**, unless it closes that group. -/
theorem step_alike (around : List (Group × Flags)) (htaken : r.taken ≤ rest.length + 1)
    (h : ¬r.Closes c) :
    Alike around rest (r.step c rest) ((r.within around).step c rest) := by
  have htaken_within : (r.within around).taken = r.taken := rfl
  have hcomment_within : (r.within around).comment = r.comment := rfl
  unfold step
  rw [htaken_within, hcomment_within, flags_within, mode_within]
  split
  · exact .ok (r := { r with taken := r.taken - 1 }) (by simp only; omega)
  next hnone =>
    have hr : r.taken = 0 := by omega
    have hnone : r.taken ≤ rest.length := hr ▸ Nat.zero_le _
    split
    · exact .ok hnone
    next hcomment =>
      rw [Bool.not_eq_true] at hcomment
      split
      · exact .ok hnone
      split
      · exact .ok hnone
      · exact act_alike hr (fun hc hmode houter => h ⟨hc, ⟨hmode, houter⟩, hcomment, hr⟩) rest

/-! ## §5 The closing ahead -/

theorem head?_append_closing {d : Char} (hd : d ≠ ')') (rest : Text) :
    (rest ++ [')', '$']).head? = some d ↔ rest.head? = some d := by
  cases rest with
  | nil => simp [Ne.symm hd]
  | cons e rest => simp

theorem asciiNamed?_append_closing (negated : Bool) (rest : Text) :
    asciiNamed? negated (rest ++ [')', '$']) = asciiNamed? negated rest := by
  unfold asciiNamed?
  rw [List.dropWhile_append, List.takeWhile_append]
  have hname := congrArg List.length
    (List.takeWhile_append_dropWhile (p := (· != ':')) (l := rest))
  rw [List.length_append] at hname
  cases hdrop : rest.dropWhile (· != ':') with
  | nil => rfl
  | cons d more =>
    rw [hdrop, List.length_cons] at hname
    have hshort : (rest.takeWhile (· != ':')).length ≠ rest.length := by omega
    rw [if_neg hshort]
    cases more with
    | nil => simp
    | cons e more => rfl

theorem asciiAhead?_append_closing (rest : Text) :
    asciiAhead? (rest ++ [')', '$']) = asciiAhead? rest := by
  match rest with
  | [] => rfl
  | c :: rest =>
    by_cases hc : c = ':'
    · subst hc
      rw [List.cons_append, asciiAhead?_colon, asciiAhead?_colon]
      cases rest with
      | nil => exact asciiNamed?_append_closing false []
      | cons d rest =>
        simp only [List.cons_append, List.head?_cons, List.drop_succ_cons, List.drop_zero,
          asciiNamed?_append_closing]
        rw [← List.cons_append, asciiNamed?_append_closing]
    · simp [asciiAhead?, hc]

theorem head?_ne_of_dropWhile {d : Char} (hd : isBlank d = false)
    (h : (rest.dropWhile isBlank).head? ≠ some d) : rest.head? ≠ some d := by
  cases rest with
  | nil => exact h
  | cons e rest =>
    rintro heq
    obtain rfl := Option.some.inj heq
    rw [List.dropWhile_cons_of_neg (by rw [hd]; decide)] at h
    exact h rfl

/-- Past blanks as well as before them, neither a closing bracket nor a hyphen is found later. -/
theorem afterHyphen_append_closing {d : Char} (hd : d = ']' ∨ d = '-') (f : Flags) (rest : Text) :
    afterHyphen f (rest ++ [')', '$']) = some d ↔ afterHyphen f rest = some d := by
  obtain ⟨hclosing, hblank, hsign⟩ : ')' ≠ d ∧ isBlank d = false ∧ '#' ≠ d := by
    rcases hd with rfl | rfl <;> decide
  have hend : List.dropWhile isBlank [')', '$'] = [')', '$'] := rfl
  have hhead : (rest.dropWhile isBlank).head? ≠ some d → rest.head? ≠ some d :=
    head?_ne_of_dropWhile hblank
  unfold afterHyphen
  split
  case isFalse => exact head?_append_closing hclosing.symm rest
  rw [List.dropWhile_append]
  cases hdrop : rest.dropWhile isBlank with
  | nil =>
    have hrest : rest.head? ≠ some d := hhead (by simp [hdrop])
    change some ')' = some d ↔ rest.head? = some d
    simp only [Option.some.injEq, hclosing, hrest]
  | cons e more =>
    simp only [List.isEmpty_cons, Bool.false_eq_true, if_false, List.cons_append]
    by_cases he : e = '#'
    · subst he
      have hrest : rest.head? ≠ some d := hhead (by simp [hdrop, hsign])
      change (((more ++ [')', '$']).dropWhile isBlank).head? <|> _) = some d ↔
        ((more.dropWhile isBlank).head? <|> rest.head?) = some d
      rw [List.dropWhile_append]
      cases more.dropWhile isBlank with
      | nil =>
        change some ')' = some d ↔ rest.head? = some d
        simp only [Option.some.injEq, hclosing, hrest]
      | cons e' more' => rfl
    · simp

theorem bracketStep_append_closing (r : Reader) (c : Char) (rest : Text) :
    r.bracketStep c (rest ++ [')', '$']) = r.bracketStep c rest := by
  unfold bracketStep
  rw [asciiAhead?_append_closing]
  split
  · rfl
  by_cases hc : c = ')'
  · subst hc
    rfl
  · simp only [head?_append_closing hc]

theorem frontStep_append_closing (r : Reader) (c : Char) (rest : Text) :
    r.frontStep c (rest ++ [')', '$']) = r.frontStep c rest := by
  unfold frontStep
  rw [bracketStep_append_closing]

theorem plainStep_append_closing (r : Reader) (c : Char) (rest : Text) :
    r.plainStep c (rest ++ [')', '$']) = r.plainStep c rest := by
  have hreluctant : reluctant (rest ++ [')', '$']) = reluctant rest := by
    funext r
    simp only [reluctant, head?_append_closing (show '?' ≠ ')' by decide)]
  unfold plainStep
  rw [hreluctant]

theorem act_append_closing (r : Reader) (c : Char) (rest : Text) :
    r.act c (rest ++ [')', '$']) = r.act c rest := by
  unfold act
  cases r.mode with
  | plain | counted | opened => simp only [plainStep_append_closing]
  | bracketStart => simp only [bracketStartStep, frontStep_append_closing]
  | bracketFront => simp only [frontStep_append_closing]
  | bracket => simp only [bracketStep_append_closing]
  | bracketAtom a =>
    simp only [afterAtomStep, bracketStep_append_closing, ne_eq,
      afterHyphen_append_closing (.inl rfl), afterHyphen_append_closing (.inr rfl)]
  | escaped slot =>
    simp only [escapedStep, head?_append_closing (show '{' ≠ ')' by decide)]
  | _ => rfl

/-- What closes the group makes no difference to the characters before it. -/
theorem step_append_closing (r : Reader) (c : Char) (rest : Text) :
    r.step c (rest ++ [')', '$']) = r.step c rest := by
  unfold step
  rw [act_append_closing]

/-! ## §6 Texts -/

/-- **A text is read inside a group as it is on its own**, up to the closing, where on its own it is
not refused for closing a group itself. -/
theorem run_within (around : List (Group × Flags)) {p : Text} (htaken : r.taken ≤ p.length)
    (h : r.run p ≠ .error .unopenedGroup) :
    (r.within around).run (p ++ [')', '$'])
        = ((r.run p).bind fun r' => (r'.within around).run [')', '$']) ∧
      ∀ r', r.run p = .ok r' → r'.taken = 0 := by
  induction p generalizing r with
  | nil => exact ⟨rfl, fun r' hr' => Except.ok.inj hr' ▸ Nat.le_zero.1 htaken⟩
  | cons c rest ih =>
    have hopen : ¬r.Closes c := by
      intro hclose
      apply h
      rw [run, hclose.step_eq]
      rfl
    obtain ⟨hwithin, htaken'⟩ := step_alike around htaken hopen
    rw [List.cons_append, run, run, step_append_closing, hwithin]
    rw [run] at h
    cases hstep : r.step c rest with
    | error e => exact ⟨rfl, fun _ hr' => by cases hr'⟩
    | ok r' =>
      rw [hstep] at h
      exact ih (htaken' r' hstep) h

end Reader

end ClassGraph
