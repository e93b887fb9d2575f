/-
ClassGraph.Proofs.Reference.Safety — reading by positions makes no misstep on
a text.

On the bytes of a text, with the cursor at a boundary, a turn of the loop does
what a step does on the text that is left: the bytes of ASCII characters occur
in no other character, so the places that are found are sizes of beginnings,
and between those stand texts (`turns_step?`, the step lemma). So from every
boundary a turn goes right and leaves the cursor at one, and the whole run
finds what `scan` finds (`readFrom_encode`, by induction on the text that is
left). `readsSafely` puts these together.
-/
import ClassGraph.Proofs.Reference.Positions
import ClassGraph.Proofs.Reference.TypeTree

namespace ClassGraph.Reference

open ClassGraph.Utf8

variable {deeper : Bool} {depth cursor opened position limit level : Nat}
  {gone left lead body name inside s : Text} {bytes part : Bytes} {st : Step} {t : Turn}

/-! ## §1 The parts of a turn on a text -/

theorem lt_of_isAlphanum {c : Char} (h : c.isAlphanum = true) : c.toNat < 0x80 := by
  have hcases : (c.isUpper = true ∨ c.isLower = true) ∨ c.isDigit = true :=
    (Bool.or_eq_true_iff.1 h).imp_left fun halpha => Bool.or_eq_true_iff.1 halpha
  -- each of the three is a pair of bounds
  have hlast : ∃ last : UInt32, c.val ≤ last ∧ last.toNat < 0x80 := by
    rcases hcases with (hupper | hlower) | hdigit
    · exact ⟨90, (of_decide_eq_true hupper).2, by decide⟩
    · exact ⟨122, of_decide_eq_true (Bool.and_eq_true_iff.1 hlower).2, by decide⟩
    · exact ⟨57, of_decide_eq_true (Bool.and_eq_true_iff.1 hdigit).2, by decide⟩
  obtain ⟨last, hle, hlt⟩ := hlast
  exact Nat.lt_of_le_of_lt (UInt32.le_iff_toNat_le.1 hle) hlt

theorem lt_of_isBodyChar {c : Char} (h : isBodyChar c = true) : c.toNat < 0x80 := by
  simp only [isBodyChar, Bool.or_eq_true, beq_iff_eq] at h
  rcases h with ((((halphanum | rfl) | rfl) | rfl) | rfl) | rfl
  case inl.inl.inl.inl.inl => exact lt_of_isAlphanum halphanum
  all_goals decide

/-- A character stands in a body where its bytes do. -/
theorem all_isBodyByte (c : Char) : (encodeChar c).all isBodyByte = isBodyChar c := by
  by_cases hc : c.toNat < 0x80
  · rw [encodeChar_ascii hc, List.all_cons, List.all_nil, Bool.and_true, isBodyByte,
      toNat_toUInt8 (by omega), Char.ofNat_toNat]
  · have hchar : isBodyChar c = false := by
      rw [← Bool.not_eq_true]
      exact fun h => hc (lt_of_isBodyChar h)
    obtain ⟨b, tail, hb, -⟩ := readChar_encodeChar c []
    have hbyte : 0x80 ≤ b.toNat :=
      (Path.toNat_of_mem_encodeChar (hb ▸ List.mem_cons_self ..)).elim (fun he => by omega) id
    have hfirst : isBodyByte b = false := by
      rw [← Bool.not_eq_true]
      intro h
      have hlt := lt_of_isBodyChar h
      have hvalid : b.toNat.isValidChar := by
        have hsize := b.toNat_lt
        exact .inl (by omega)
      rw [Utf8.toNat_ofNat_of_isValidChar hvalid] at hlt
      omega
    rw [hb, List.all_cons, hfirst, hchar, Bool.false_and]

theorem isBodyBytes_encode (s : Text) : isBodyBytes (encode s) = isBody s := by
  have hall : (encode s).all isBodyByte = s.all isBodyChar := by
    induction s with
    | nil => rfl
    | cons c s ih => rw [encode_cons, List.all_append, all_isBodyByte, ih, List.all_cons]
  rw [isBodyBytes, isBody, hall]
  congr 2
  exact isEmpty_encode s

/-- The bracket that opens type arguments is found behind the name. -/
theorem genericOpen_encode (body : Text) :
    genericOpen (encode body) = .ok ((argumentsOf? body).map size) := by
  by_cases hm : '<' ∈ body
  · obtain ⟨u, v, rfl, hu⟩ := List.eq_append_cons_of_mem hm
    have hslice : slice? (encode (u ++ '<' :: v)) (size u + 1) (encode (u ++ '<' :: v)).length
        = .ok (encode v) :=
      slice?_encode_end (List.append_cons u '<' v) (size_append u ['<']).symm
    rw [genericOpen, idxOf?_encode (by decide) hu, argumentsOf?, dropWhile_append_cons hu,
      takeWhile_append_cons hu]
    simp only [hslice]
    change Except.ok (if (encode v).head? = some (byte 'L') then some (size u) else none) = _
    cases v with
    | nil => rfl
    | cons d v =>
      by_cases hd : d = 'L'
      · rw [hd]
        rfl
      · have hhead : (encode (d :: v)).head? ≠ some (byte 'L') := fun he =>
          hd (Option.some.inj ((head?_encode (by decide)).1 he))
        rw [if_neg hhead]
        split
        · next he =>
          cases he
          exact absurd rfl hd
        · rfl
  · rw [genericOpen, idxOf?_encode_eq_none (by decide) hm, argumentsOf?, dropWhile_of_not_mem hm]
    rfl

theorem matchingClose_lt (opened position : Nat) (rest : Bytes) :
    matchingClose opened position (byte '<' :: rest)
      = matchingClose (opened + 1) (position + 1) rest := by
  simp [matchingClose]

theorem matchingClose_gt (opened position : Nat) (rest : Bytes) :
    matchingClose (opened + 1) position (byte '>' :: rest)
      = if opened = 0 then .ok (some position) else matchingClose opened (position + 1) rest := by
  have hne : byte '>' ≠ byte '<' := by decide
  simp [matchingClose, hne]

/-- Bytes that are no brackets change nothing about where a bracket closes. -/
theorem matchingClose_append (hopen : byte '<' ∉ bytes) (hclose : byte '>' ∉ bytes)
    (rest : Bytes) : matchingClose opened position (bytes ++ rest)
      = matchingClose opened (position + bytes.length) rest := by
  induction bytes generalizing position with
  | nil => rfl
  | cons b bytes ih =>
    simp only [List.mem_cons, not_or] at hopen hclose
    have hplace : position + (bytes.length + 1) = position + 1 + bytes.length := by omega
    rw [List.cons_append, List.length_cons, hplace, ← ih hopen.2 hclose.2]
    simp [matchingClose, Ne.symm hopen.1, Ne.symm hclose.1]

/-- A character that is passed over goes to the front of the arguments. -/
theorem map_size_cons (c : Char) (position : Nat) (found : Option (Text × Text)) :
    found.map (fun p => position + size [c] + size p.1)
      = (found.map fun p => (c :: p.1, p.2)).map fun p => position + size p.1 := by
  rw [Option.map_map]
  congr 1
  funext p
  rw [Function.comp, Nat.add_assoc, ← size_cons c p.1]

/-- Behind a bracket the count of what is open does not fall below one before that bracket
closes. -/
theorem matchingClose_encode (inner position : Nat) (s : Text) :
    matchingClose (inner + 1) position (encode s)
      = .ok ((closing inner s).map fun p => position + size p.1) := by
  induction s generalizing inner position with
  | nil => rfl
  | cons c s ih =>
    by_cases hopen : c = '<'
    · rw [hopen, encode_cons_ascii (by decide), matchingClose_lt, ih, closing_lt]
      exact congrArg Except.ok (map_size_cons '<' position _)
    by_cases hclose : c = '>'
    · rw [hclose, encode_cons_ascii (by decide), matchingClose_gt]
      cases inner with
      | zero => simp [closing]
      | succ inner =>
        rw [if_neg (Nat.succ_ne_zero inner), ih, closing_gt]
        exact congrArg Except.ok (map_size_cons '>' position _)
    · have hbytes : ∀ d : Char, d.toNat < 0x80 → c ≠ d → byte d ∉ encodeChar c :=
        fun d hd hc hm => hc ((ascii_mem_encodeChar hd).1 hm)
      have hplain : ∀ d ∈ [c], d ≠ '<' ∧ d ≠ '>' := by simp [hopen, hclose]
      have hclosing := closing_append_of_plain hplain inner s
      rw [List.singleton_append] at hclosing
      rw [encode_cons, matchingClose_append (hbytes '<' (by decide) hopen)
        (hbytes '>' (by decide) hclose), ih, hclosing, ← size_singleton]
      exact congrArg Except.ok (map_size_cons c position _)

theorem nameBefore_encode (name w : Text) :
    nameBefore (encode (name ++ w)) (size name)
      = .ok (((sighted name).filterMap Sighting.body?).map encode) := by
  by_cases hname : name = []
  · rw [hname]
    rfl
  · have hslice : slice? (encode (name ++ w)) 0 (size name) = .ok (encode name) :=
      slice?_encode (u := []) rfl rfl (Nat.zero_add _).symm
    have hsighted : sighted name = [.reference name] := by simp [sighted, hname]
    rw [nameBefore, if_pos (size_pos hname), hslice, hsighted]
    rfl

/-! ## §2 A turn on a text -/

/-- The type arguments behind a bracket, which run up to where it closes or to the end. -/
def argumentsBehind (inside : Text) : Text := ((closing 0 inside).map Prod.fst).getD inside

theorem argumentsFrom_encode (deeper : Bool) {before : Text} (hs : s = before ++ inside) :
    argumentsFrom deeper (encode s) (size before)
        (((closing 0 inside).map fun p => size before + size p.1).getD (encode s).length)
      = .ok (if deeper then some (encode (argumentsBehind inside)) else none) := by
  have hslice : slice? (encode s) (size before)
        (((closing 0 inside).map fun p => size before + size p.1).getD (encode s).length)
      = .ok (encode (argumentsBehind inside)) := by
    unfold argumentsBehind
    cases hc : closing 0 inside with
    | none => exact slice?_encode_end hs rfl
    | some p =>
      rw [closing_eq_some hc] at hs
      exact slice?_encode hs rfl rfl
  rw [argumentsFrom, hslice]
  cases deeper <;> rfl

/-- At a bracket the name before it is found, and the loop goes on where the bracket closes. -/
theorem bracketTurn_encode (before w : Text) (hs : s = before ++ (name ++ '<' :: inside)) :
    bracketTurn deeper (encode s) (encode (name ++ w)) (size before) (size name) =
      .ok ⟨((sighted name).filterMap Sighting.body?).map encode,
        if deeper then some (encode (argumentsBehind inside)) else none,
        (closing 0 inside).map fun p => size before + size name + 1 + size p.1 + 1⟩ := by
  have hplace : size before + size name + 1 = size (before ++ (name ++ ['<'])) := by
    rw [size_append, size_append]
    rfl
  have hbytes : encode s = encode (before ++ name) ++ byte '<' :: encode inside := by
    rw [hs, ← encode_cons_ascii (by decide), ← encode_append, List.append_assoc]
  have hdrop : (encode s).drop (size before + size name) = byte '<' :: encode inside := by
    rw [hbytes]
    exact List.drop_left' (size_append before name)
  have hclose : matchingClose 0 (size before + size name) (byte '<' :: encode inside)
      = .ok ((closing 0 inside).map fun p => size before + size name + 1 + size p.1) := by
    rw [matchingClose_lt, matchingClose_encode]
  have hparts : s = before ++ (name ++ ['<']) ++ inside := by
    rw [hs]
    simp
  have hargs := argumentsFrom_encode deeper hparts
  rw [← hplace] at hargs
  refine bind_eq_ok.2 ⟨_, nameBefore_encode name w, bind_eq_ok.2 ⟨_, hdrop ▸ hclose,
    bind_eq_ok.2 ⟨_, hargs, ?_⟩⟩⟩
  rw [Option.map_map]
  rfl

/-- Behind a letter a body runs up to the next `;`. -/
theorem bodyTurn_encode (before rest : Text) (hbody : ';' ∉ body)
    (hs : s = before ++ (body ++ ';' :: rest)) :
    bodyTurn deeper (encode s) (size before) =
      if isBody body then
        match argumentsOf? body with
        | none => .ok ⟨[encode body], none, some (size before + size body + 1)⟩
        | some name => bracketTurn deeper (encode s) (encode body) (size before) (size name)
      else .ok ⟨[], none, some (size before)⟩ := by
  have hcandidate : slice? (encode s) (size before) (size before + size body) = .ok (encode body) :=
    slice?_encode hs rfl rfl
  have hend : (encode (body ++ ';' :: rest)).idxOf? (byte ';') = some (size body) :=
    idxOf?_encode (by decide) hbody rest
  simp only [bodyTurn, slice?_encode_end hs rfl, ok_bind, hend, hcandidate, isBodyBytes_encode,
    genericOpen_encode]
  cases isBody body with
  | false => rfl
  | true =>
    cases argumentsOf? body <;> rfl

/-- A turn on a text finds the first letter that is left. -/
theorem turn_encode (gone tail : Text) (hl : 'L' ∉ lead) (hs : s = gone ++ (lead ++ 'L' :: tail)) :
    turn deeper (encode s) (size gone)
      = bodyTurn deeper (encode s) (size (gone ++ (lead ++ ['L']))) := by
  have hletter : (encode (lead ++ 'L' :: tail)).idxOf? (byte 'L') = some (size lead) :=
    idxOf?_encode (by decide) hl tail
  have hplace : size gone + size lead + 1 = size (gone ++ (lead ++ ['L'])) := by
    rw [size_append, size_append]
    rfl
  simp only [turn, slice?_encode_end hs rfl, ok_bind, hletter, hplace]

/-! ## §3 Turns and steps -/

/-- A turn on a text does what the step does that is taken on what is left of it. -/
structure Turn.Follows (t : Turn) (deeper : Bool) (s : Text) (st : Step) : Prop where
  found : t.found = (st.found.filterMap Sighting.body?).map encode
  arguments : t.arguments = if deeper then st.arguments.map encode else none
  next : (t.next = none ∧ st.rest = []) ∨
    ∃ before, s = before ++ st.rest ∧ t.next = some (size before)

/-- The outcome of a turn on a text, by the step on what is left of it: the last turn where there is
none, and else a turn that follows the step. -/
def Turns (deeper : Bool) (s : Text) (outcome : Except Misstep Turn) : Option Step → Prop
  | none => outcome = .ok .last
  | some st => ∃ t, outcome = .ok t ∧ t.Follows deeper s st

/-- Behind the bracket that a name opens. -/
theorem turns_bracket (before w : Text) (hs : s = before ++ (name ++ '<' :: inside)) :
    Turns deeper s (bracketTurn deeper (encode s) (encode (name ++ w)) (size before) (size name))
      (match closing 0 inside with
        | some (args, rest) => some ⟨sighted name, some args, rest⟩
        | none => some ⟨sighted name, some inside, []⟩) := by
  rw [bracketTurn_encode before w hs, argumentsBehind]
  cases hc : closing 0 inside with
  | none =>
    refine ⟨_, rfl, rfl, ?_, .inl ⟨rfl, rfl⟩⟩
    cases deeper <;> rfl
  | some p =>
    obtain ⟨args, rest⟩ := p
    refine ⟨_, rfl, rfl, ?_, .inr ⟨before ++ (name ++ '<' :: (args ++ ['>'])), ?_, ?_⟩⟩
    · cases deeper <;> rfl
    · rw [hs, closing_eq_some hc]
      simp
    · have hsize : size (name ++ '<' :: (args ++ ['>'])) = size name + 1 + size args + 1 := by
        rw [size_append, size_cons_ascii (by decide) (args ++ ['>']), size_append,
          size_cons_ascii (by decide) [], size_nil]
        omega
      rw [size_append, hsize]
      simp only [Option.map_some, Nat.add_assoc]

theorem turns_step? (deeper : Bool) (gone left : Text) :
    Turns deeper (gone ++ left) (turn deeper (encode (gone ++ left)) (size gone)) (step? left) := by
  by_cases hL : 'L' ∈ left
  · obtain ⟨lead, tail, rfl, hl⟩ := List.eq_append_cons_of_mem hL
    have hs : gone ++ (lead ++ 'L' :: tail) = gone ++ (lead ++ ['L']) ++ tail := by simp
    rw [turn_encode gone tail hl rfl, step?, dropWhile_append_cons hl]
    by_cases hend : ';' ∈ tail
    · obtain ⟨body, rest, rfl, hbody⟩ := List.eq_append_cons_of_mem hend
      simp only [if_pos hend, takeWhile_append_cons hbody, dropWhile_append_cons hbody]
      rw [bodyTurn_encode _ rest hbody hs]
      cases hb : isBody body with
      | false => exact ⟨_, rfl, rfl, by cases deeper <;> rfl, .inr ⟨_, hs, rfl⟩⟩
      | true =>
        cases ha : argumentsOf? body with
        | none =>
          refine ⟨_, rfl, rfl, by cases deeper <;> rfl,
            .inr ⟨gone ++ (lead ++ ['L']) ++ (body ++ [';']), by simp, ?_⟩⟩
          rw [size_append _ (body ++ [';']), size_append body]
          rfl
        | some name =>
          -- the arguments may run on behind the `;`, so they are taken from all of the text
          obtain ⟨-, w, rfl⟩ := argumentsOf?_eq_some.1 ha
          have hinside : (name ++ '<' :: 'L' :: w ++ ';' :: rest).drop (name.length + 1)
              = 'L' :: w ++ ';' :: rest := by
            rw [List.append_assoc, List.cons_append]
            exact drop_name name _
          simp only [if_true, hinside]
          exact turns_bracket _ _ (by rw [hs]; simp)
    · simp only [bodyTurn, slice?_encode_end hs rfl, ok_bind, idxOf?_encode_eq_none (by decide) hend,
        if_neg hend]
      rfl
  · rw [step?, dropWhile_of_not_mem hL]
    simp only [turn, slice?_encode_end rfl rfl, ok_bind, idxOf?_encode_eq_none (by decide) hL]
    rfl

/-! ## §4 The run on a text -/

/-- The bodies that a scan finds in a text, as bytes. -/
def scanned (limit depth : Nat) (text : Text) : List Bytes :=
  ((scan (some limit) depth text).filterMap Sighting.body?).map encode

/-- The bodies that are found in the type arguments of a step. -/
def scannedBehind (limit depth : Nat) (st : Step) : List Bytes :=
  match st.arguments with
  | some args => if isRead (some limit) depth then scanned limit (depth + 1) args else []
  | none => []

theorem scanned_of_step? (limit depth : Nat) (h : step? left = some st) :
    scanned limit depth left = (st.found.filterMap Sighting.body?).map encode
      ++ scannedBehind limit depth st ++ scanned limit depth st.rest := by
  have hbehind : ((match st.arguments with
      | some args => inArguments (some limit) depth args
      | none => []).filterMap Sighting.body?).map encode = scannedBehind limit depth st := by
    unfold scannedBehind
    split
    · unfold inArguments
      split <;> rfl
    · rfl
  rw [scanned, scan_eq_step, h, ← hbehind]
  simp only [Step.sightings, List.filterMap_append, List.map_append]
  rfl

/-- What a call comes to that reads `left`: the bodies that the scan finds there, and no more
nested calls than there are levels left. -/
structure Course.Reads (course : Course) (limit depth : Nat) (left : Text) : Prop where
  found : course.found = scanned limit depth left
  calls : course.calls ≤ limit - depth + 1

/-- The call for the type arguments of a turn, if they are read. -/
theorem exists_inner {t : Turn} {limit : Nat}
    (hargs : t.arguments = if isRead (some limit) depth then st.arguments.map encode else none)
    (hread : ∀ args, st.arguments = some args → ∃ inner,
      readFrom (some limit) (depth + 1) (encode args) 0 = .ok inner ∧
        inner.Reads limit (depth + 1) args) :
    ∃ inner, readArguments (some limit) depth t.arguments = .ok inner ∧
      inner.found = scannedBehind limit depth st ∧ inner.calls ≤ limit - depth := by
  cases hst : st.arguments with
  | none =>
    have hnone : t.arguments = none := by
      rw [hargs, hst]
      split <;> rfl
    refine ⟨.none, by rw [hnone]; rfl, ?_, Nat.zero_le _⟩
    simp only [scannedBehind, hst]
    rfl
  | some args =>
    rw [hst] at hargs
    cases hdeep : isRead (some limit) depth with
    | false =>
      rw [hdeep] at hargs
      refine ⟨.none, by rw [hargs]; rfl, ?_, Nat.zero_le _⟩
      simp only [scannedBehind, hst, hdeep]
      rfl
    | true =>
      rw [hdeep] at hargs
      obtain ⟨inner, hinner, hfound, hcalls⟩ := hread args hst
      have hlevel : depth < limit := of_decide_eq_true hdeep
      refine ⟨inner, by rw [hargs]; exact hinner, ?_, by omega⟩
      simp only [scannedBehind, hst, hdeep, if_true, hfound]

/-- From any place in a text reading goes right, and comes to what the scan does with the rest. -/
theorem readFrom_encode (limit depth : Nat) (gone left : Text) :
    ∃ course, readFrom (some limit) depth (encode (gone ++ left)) (size gone) = .ok course ∧
      course.Reads limit depth left := by
  have hturns := turns_step? (isRead (some limit) depth) gone left
  cases hstep : step? left with
  | none =>
    rw [hstep] at hturns
    refine ⟨⟨[], 1⟩, readFrom_of_turn hturns rfl rfl, ?_, Nat.le_add_left _ _⟩
    rw [scanned, scan_eq_step, hstep]
    rfl
  | some st =>
    rw [hstep] at hturns
    obtain ⟨t, hturn, hfollows⟩ := hturns
    have hrestLength := length_rest_lt hstep
    -- the arguments are a shorter text of their own, read from its front
    obtain ⟨inner, hinner, hbehind, hinnerCalls⟩ := exists_inner hfollows.arguments
      fun args ha => by
        have hlength : args.length < left.length := by
          obtain ⟨before, behind, rfl⟩ := (takes_of_step? hstep).bracket args ha
          simp only [List.length_append, List.length_cons]
          omega
        exact readFrom_encode limit (depth + 1) [] args
    -- the rest is what the step leaves, read from behind what is done with
    obtain ⟨rest, hrest, hfound, hcalls⟩ : ∃ rest,
        goOn (some limit) depth (encode (gone ++ left)) t.next = .ok rest ∧
          rest.Reads limit depth st.rest := by
      rcases hfollows.next with ⟨hnext, hempty⟩ | ⟨before, hs, hnext⟩
      · refine ⟨.none, by rw [hnext]; rfl, ?_, Nat.zero_le _⟩
        rw [hempty, scanned, scan_quiet List.not_mem_nil]
        rfl
      · rw [hnext, hs]
        exact readFrom_encode limit depth before st.rest
    refine ⟨_, readFrom_of_turn hturn hinner hrest, ?_, ?_⟩
    · rw [scanned_of_step? limit depth hstep, hfollows.found, hbehind, hfound]
    · simp only
      omega
termination_by left.length

/-! ## §5 Every iteration -/

/-- What a turn keeps to on a text: it leaves the cursor at a boundary further on, and a text to
the next level, if any. -/
structure Turn.Safe (t : Turn) (deeper : Bool) (s : Text) (cursor : Nat) : Prop where
  progress : ∀ next, t.next = some next → cursor < next ∧ next ≤ (encode s).length
  boundary : ∀ next, t.next = some next → isBoundary (encode s) next = true
  arguments : ∀ args, t.arguments = some args → deeper = true ∧ ∃ inner : Text, args = encode inner

/-- From every boundary of a text a turn goes right. -/
theorem exists_turn (deeper : Bool) (h : isBoundary (encode s) cursor = true) :
    ∃ t, turn deeper (encode s) cursor = .ok t ∧ t.Safe deeper s cursor := by
  obtain ⟨gone, left, rfl, rfl⟩ := isBoundary_encode_iff.1 h
  have hturns := turns_step? deeper gone left
  cases hstep : step? left with
  | none =>
    rw [hstep] at hturns
    exact ⟨.last, hturns, nofun, nofun, nofun⟩
  | some st =>
    rw [hstep] at hturns
    obtain ⟨t, hturn, hfollows⟩ := hturns
    refine ⟨t, hturn, (advances_of_turn hturn).next, ?_, ?_⟩
    · intro next hnext
      rcases hfollows.next with ⟨hnone, -⟩ | ⟨before, hs, hsome⟩
      · rw [hnone] at hnext
        cases hnext
      · obtain rfl : size before = next := Option.some.inj (hsome.symm.trans hnext)
        rw [hs]
        exact isBoundary_encode before st.rest
    · intro args hargs
      rw [hfollows.arguments] at hargs
      split at hargs
      · next hdeeper =>
        obtain ⟨inner, -, rfl⟩ := Option.map_eq_some_iff.1 hargs
        exact ⟨hdeeper, inner, rfl⟩
      · cases hargs

/-- The iterations that reading comes to: the level of the call, the bytes that it reads, and the
cursor. -/
inductive Reached (bound : Option Nat) (depth : Nat) (text : Bytes) : Nat → Bytes → Nat → Prop
  /-- The first call begins at the front. -/
  | start : Reached bound depth text depth text 0
  /-- The loop goes on. -/
  | next {level part cursor t next} : Reached bound depth text level part cursor →
      turn (isRead bound level) part cursor = .ok t → t.next = some next →
      Reached bound depth text level part next
  /-- Type arguments are read in a call of their own. -/
  | call {level part cursor t args} : Reached bound depth text level part cursor →
      turn (isRead bound level) part cursor = .ok t → t.arguments = some args →
      Reached bound depth text (level + 1) args 0

/-- What holds in every iteration; a call for each level from `depth` on is open there. -/
structure SafeAt (limit depth level : Nat) (part : Bytes) (cursor : Nat) : Prop where
  isText : ∃ inner : Text, part = encode inner
  boundary : isBoundary part cursor = true
  open_calls : depth ≤ level ∧ level - depth ≤ limit - depth

theorem safeAt_of_reached (h : Reached (some limit) depth (encode s) level part cursor) :
    SafeAt limit depth level part cursor := by
  induction h with
  | start => exact ⟨⟨s, rfl⟩, rfl, by omega⟩
  | @next level part cursor t next _ hturn hnext ih =>
    obtain ⟨⟨inner, rfl⟩, hboundary, hopen⟩ := ih
    obtain ⟨t', hturn', hsafe⟩ := exists_turn (isRead (some limit) level) hboundary
    obtain rfl : t = t' := Except.ok.inj (hturn.symm.trans hturn')
    exact ⟨⟨inner, rfl⟩, hsafe.boundary next hnext, hopen⟩
  | @call level part cursor t args _ hturn hargs ih =>
    obtain ⟨⟨inner, rfl⟩, hboundary, hopen⟩ := ih
    obtain ⟨t', hturn', hsafe⟩ := exists_turn (isRead (some limit) level) hboundary
    obtain rfl : t = t' := Except.ok.inj (hturn.symm.trans hturn')
    obtain ⟨hdeeper, htext⟩ := hsafe.arguments args hargs
    have hlevel : level < limit := of_decide_eq_true hdeeper
    exact ⟨htext, rfl, by omega⟩

/-- What reading a text keeps to that begins on the level `depth`. -/
structure ReadsSafely (depth : Nat) (s : Text) : Prop where
  /-- In every iteration of every call, the cursor lies in the bytes, no part is taken across a
  boundary and no count falls below zero, and if the loop goes on, then further on in the bytes. -/
  iteration : ∀ level part cursor,
    Reached (some maxDepth) depth (encode s) level part cursor →
      cursor ≤ part.length ∧ ∃ t, turn (isRead (some maxDepth) level) part cursor = .ok t ∧
        ∀ next, t.next = some next → cursor < next ∧ next ≤ part.length
  /-- In every iteration there are no more calls open within the first than levels are left. -/
  nesting : ∀ level part cursor,
    Reached (some maxDepth) depth (encode s) level part cursor →
      level - depth ≤ maxDepth - depth
  /-- Reading ends, and has found what the scan finds. -/
  run : ∃ course, readFrom (some maxDepth) depth (encode s) 0 = .ok course ∧
    course.found = ((scan (some maxDepth) depth s).filterMap Sighting.body?).map encode ∧
    course.calls ≤ maxDepth - depth + 1

/-- **Reading is safe and ends**, whatever the text and the level that it begins on. -/
theorem readsSafely (depth : Nat) (s : Text) : ReadsSafely depth s where
  iteration := fun level part cursor h => by
    obtain ⟨⟨inner, rfl⟩, hboundary, -⟩ := safeAt_of_reached h
    obtain ⟨t, hturn, hsafe⟩ := exists_turn (isRead (some maxDepth) level) hboundary
    exact ⟨le_of_isBoundary hboundary, t, hturn, hsafe.progress⟩
  nesting := fun level part cursor h => (safeAt_of_reached h).open_calls.2
  run := by
    obtain ⟨course, hcourse, hfound, hcalls⟩ := readFrom_encode maxDepth depth [] s
    exact ⟨course, hcourse, hfound, hcalls⟩

/-- A letter of two bytes stands in front, and the arguments of the inner name lie too deep. -/
example : ∃ course, readFrom (some 1) 0
    (encode ['é', 'L', 'A', '<', 'L', 'B', '<', 'L', 'C', ';', '>', ';']) 0 = .ok course ∧
    course.found = [[0x41], [0x42]] := by
  obtain ⟨course, hcourse, hfound, -⟩ :=
    readFrom_encode 1 0 [] ['é', 'L', 'A', '<', 'L', 'B', '<', 'L', 'C', ';', '>', ';']
  exact ⟨course, hcourse, hfound.trans (by decide +kernel)⟩

end ClassGraph.Reference
