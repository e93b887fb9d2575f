/-
ClassGraph.Proofs.Reference.Positions — the reader as a loop over the positions
of bytes.

`scan` is defined on the text that is left. The same reading can be done by a
cursor in the bytes of one text: a turn of the loop finds the next `L` and the
`;` behind it, takes the body and the type arguments out as parts of the
bytes, and puts the cursor behind what it has dealt with. Here parts are taken
between boundaries only, and a count of open brackets is not lowered below
zero; each is a `Misstep` otherwise. Whatever the bytes, a turn puts the
cursor further on and leaves less than the text to the next level, by which
`readFrom` ends: `advances_of_turn`.
-/
import ClassGraph.Proofs.Reference.Trail
import ClassGraph.Proofs.Steps
import ClassGraph.Proofs.Text.Slice

namespace ClassGraph.Reference

open ClassGraph.Utf8

variable {bound : Option Nat} {deeper : Bool} {depth cursor opened position close : Nat}
  {bytes text candidate : Bytes}

/-! ## §1 The reader by positions -/

/-- Whether a byte may stand in the body of a reference. -/
def isBodyByte (b : UInt8) : Bool := isBodyChar (Char.ofNat b.toNat)

def isBodyBytes (bytes : Bytes) : Bool := !bytes.isEmpty && bytes.all isBodyByte

/-- Where the first bracket of a body stands, if it opens type arguments. -/
def genericOpen (candidate : Bytes) : Except Misstep (Option Nat) :=
  match candidate.idxOf? (byte '<') with
  | none => .ok none
  | some bracket => do
    let behind ← slice? candidate (bracket + 1) candidate.length
    return if behind.head? = some (byte 'L') then some bracket else none

/-- Where the bracket closes that opens the bytes, which stand from `position` on; `opened` counts
the brackets that are open. -/
def matchingClose (opened position : Nat) : Bytes → Except Misstep (Option Nat)
  | [] => .ok none
  | b :: rest =>
    if b = byte '<' then matchingClose (opened + 1) (position + 1) rest
    else if b = byte '>' then
      match opened with
      | 0 => .error (.belowZero position)
      | opened + 1 =>
        if opened = 0 then .ok (some position) else matchingClose opened (position + 1) rest
    else matchingClose opened (position + 1) rest

/-- What a turn of the loop does. -/
structure Turn where
  /-- The body that is found. -/
  found : List Bytes
  /-- The type arguments that are read one level deeper. -/
  arguments : Option Bytes
  /-- Where the loop goes on, if it does. -/
  next : Option Nat
  deriving DecidableEq, Repr

/-- The turn in which the loop ends with nothing found. -/
def Turn.last : Turn := ⟨[], none, none⟩

/-- The name before a bracket, unless it is empty. -/
def nameBefore (candidate : Bytes) (bracket : Nat) : Except Misstep (List Bytes) :=
  if 0 < bracket then (slice? candidate 0 bracket).map fun name => [name] else .ok []

/-- The type arguments between two positions, if they are read. -/
def argumentsFrom (deeper : Bool) (text : Bytes) (start stop : Nat) :
    Except Misstep (Option Bytes) :=
  if deeper then (slice? text start stop).map some else .ok none

/-- The turn at a body whose first bracket opens type arguments. -/
def bracketTurn (deeper : Bool) (text candidate : Bytes) (bodyStart bracket : Nat) :
    Except Misstep Turn := do
  let found ← nameBefore candidate bracket
  let opening := bodyStart + bracket
  let close ← matchingClose 0 opening (text.drop opening)
  let arguments ← argumentsFrom deeper text (opening + 1) (close.getD text.length)
  return ⟨found, arguments, close.map (· + 1)⟩

/-- The turn at a letter, behind which a body may stand. -/
def bodyTurn (deeper : Bool) (text : Bytes) (bodyStart : Nat) : Except Misstep Turn := do
  let behind ← slice? text bodyStart text.length
  match behind.idxOf? (byte ';') with
  | none => return .last
  | some length =>
    let bodyEnd := bodyStart + length
    let candidate ← slice? text bodyStart bodyEnd
    if isBodyBytes candidate then
      match ← genericOpen candidate with
      | none => return ⟨[candidate], none, some (bodyEnd + 1)⟩
      | some bracket => bracketTurn deeper text candidate bodyStart bracket
    else return ⟨[], none, some bodyStart⟩

/-- One turn of the loop, from the cursor on; `deeper` says whether type arguments are read. -/
def turn (deeper : Bool) (text : Bytes) (cursor : Nat) : Except Misstep Turn := do
  let ahead ← slice? text cursor text.length
  match ahead.idxOf? (byte 'L') with
  | none => return .last
  | some offset => bodyTurn deeper text (cursor + offset + 1)

/-! ## §2 Progress -/

theorem matchingClose_bounds (h : matchingClose opened position bytes = .ok (some close)) :
    position ≤ close ∧ close < position + bytes.length := by
  fun_induction matchingClose opened position bytes with
  | case1 => cases h
  | case3 => cases h
  | case4 position b rest =>
    cases h
    rw [List.length_cons]
    omega
  | case2 _ _ _ ih | case5 _ _ _ _ _ ih | case6 _ _ _ _ _ _ ih =>
    have hrest := ih h
    rw [List.length_cons]
    omega

theorem idxOf?_lt {b : UInt8} {i : Nat} (h : bytes.idxOf? b = some i) : i < bytes.length := by
  obtain ⟨hi, -⟩ := List.idxOf?_eq_some_iff.1 h
  exact hi

/-- A turn leaves the cursor further on, but in the text, and less than the text to the next
level. -/
structure Turn.Advances (t : Turn) (text : Bytes) (cursor : Nat) : Prop where
  next : ∀ next, t.next = some next → cursor < next ∧ next ≤ text.length
  arguments : ∀ args, t.arguments = some args → args.length < text.length

theorem length_argumentsFrom {start stop : Nat} {args : Bytes} (hstart : 0 < start)
    (h : argumentsFrom deeper text start stop = .ok (some args)) : args.length < text.length := by
  unfold argumentsFrom at h
  split at h
  · cases hslice : slice? text start stop with
    | error e =>
      rw [hslice] at h
      cases h
    | ok part =>
      rw [hslice] at h
      cases h
      have hpart := slice?_eq_ok hslice
      omega
  · cases h

theorem advances_of_bracketTurn {t : Turn} {bodyStart bracket : Nat} (hb : cursor < bodyStart)
    (h : bracketTurn deeper text candidate bodyStart bracket = .ok t) : t.Advances text cursor := by
  obtain ⟨found, -, h⟩ := bind_eq_ok.1 h
  obtain ⟨close, hclose, h⟩ := bind_eq_ok.1 h
  obtain ⟨arguments, hargs, h⟩ := bind_eq_ok.1 h
  cases h
  constructor
  · intro next hnext
    obtain ⟨place, rfl, rfl⟩ := Option.map_eq_some_iff.1 hnext
    have hplace := matchingClose_bounds hclose
    rw [List.length_drop] at hplace
    omega
  · rintro args rfl
    exact length_argumentsFrom (Nat.succ_pos _) hargs

theorem advances_last (text : Bytes) (cursor : Nat) : Turn.last.Advances text cursor :=
  ⟨nofun, nofun⟩

theorem advances_of_bodyTurn {t : Turn} {bodyStart : Nat} (hb : cursor < bodyStart)
    (h : bodyTurn deeper text bodyStart = .ok t) : t.Advances text cursor := by
  obtain ⟨behind, hbehind, h⟩ := bind_eq_ok.1 h
  have hsize := slice?_eq_ok hbehind
  split at h
  · cases h
    exact advances_last text cursor
  · next length hlength =>
    have hin := idxOf?_lt hlength
    have hnext : ∀ {found next}, bodyStart ≤ next → next ≤ bodyStart + length + 1 →
        Turn.Advances ⟨found, none, some next⟩ text cursor := fun hleast hmost =>
      ⟨fun _ he => by cases he; omega, nofun⟩
    obtain ⟨candidate, -, h⟩ := bind_eq_ok.1 h
    split at h
    · obtain ⟨bracket, -, h⟩ := bind_eq_ok.1 h
      split at h
      · cases h
        exact hnext (by omega) (by omega)
      · exact advances_of_bracketTurn hb h
    · cases h
      exact hnext (by omega) (by omega)

/-- Whatever the bytes and the cursor, a turn that goes right advances. -/
theorem advances_of_turn {t : Turn} (h : turn deeper text cursor = .ok t) :
    t.Advances text cursor := by
  obtain ⟨ahead, -, h⟩ := bind_eq_ok.1 h
  split at h
  · cases h
    exact advances_last text cursor
  · exact advances_of_bodyTurn (by omega) h

/-! ## §3 The run -/

/-- What a call of the reader comes to. -/
structure Course where
  /-- The bodies that are found, in the order of reading. -/
  found : List Bytes
  /-- How many calls are open at once at most, this one included. -/
  calls : Nat
  deriving DecidableEq, Repr

/-- No call at all. -/
def Course.none : Course := ⟨[], 0⟩

/-- Reads the text from the cursor on, on the level `depth`: turn after turn, the type arguments
of each in a call of its own. -/
def readFrom (bound : Option Nat) (depth : Nat) (text : Bytes) (cursor : Nat) :
    Except Misstep Course :=
  match h : turn (isRead bound depth) text cursor with
  | .error m => .error m
  | .ok t => do
    have hadvances := advances_of_turn h
    let inner ← (match ha : t.arguments with
      | none => .ok .none
      | some args =>
        have := hadvances.arguments args ha
        readFrom bound (depth + 1) args 0 : Except Misstep Course)
    let rest ← (match hn : t.next with
      | none => .ok .none
      | some next =>
        have := hadvances.next next hn
        readFrom bound depth text next : Except Misstep Course)
    return ⟨t.found ++ inner.found ++ rest.found, max (inner.calls + 1) rest.calls⟩
termination_by (text.length, text.length - cursor)
decreasing_by
  · exact Prod.Lex.left _ _ this
  · exact Prod.Lex.right _ (by omega)

/-- The call for type arguments, if there are any to be read. -/
def readArguments (bound : Option Nat) (depth : Nat) : Option Bytes → Except Misstep Course
  | none => .ok .none
  | some args => readFrom bound (depth + 1) args 0

/-- The turns that follow, if the loop goes on. -/
def goOn (bound : Option Nat) (depth : Nat) (text : Bytes) : Option Nat → Except Misstep Course
  | none => .ok .none
  | some next => readFrom bound depth text next

theorem readFrom_of_turn {t : Turn} {inner rest : Course}
    (h : turn (isRead bound depth) text cursor = .ok t)
    (hinner : readArguments bound depth t.arguments = .ok inner)
    (hrest : goOn bound depth text t.next = .ok rest) :
    readFrom bound depth text cursor
      = .ok ⟨t.found ++ inner.found ++ rest.found, max (inner.calls + 1) rest.calls⟩ := by
  rw [readFrom]
  split
  · next m hm =>
    rw [h] at hm
    cases hm
  · next t' ht' =>
    obtain rfl : t = t' := Except.ok.inj (h.symm.trans ht')
    refine bind_eq_ok.2 ⟨inner, ?_, bind_eq_ok.2 ⟨rest, ?_, rfl⟩⟩
    · rw [← hinner, readArguments.eq_def]
      split <;> simp only [*]
    · rw [← hrest, goOn.eq_def]
      split <;> simp only [*]

end ClassGraph.Reference
