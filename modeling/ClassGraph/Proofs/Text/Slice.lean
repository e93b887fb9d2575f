/-
ClassGraph.Proofs.Text.Slice — parts of a text by the positions of its bytes.

A position in the bytes of a text is a boundary where no character is cut
through, and only between two boundaries may a part be taken. The boundaries
of a text are the sizes of its beginnings: `isBoundary_encode_iff`. So what is
taken between two of them is a text again (`slice?_encode`), and an ASCII
character is found at the size of what precedes it (`idxOf?_encode`).
-/
import ClassGraph.Proofs.Text.Occurrence
import ClassGraph.Proofs.Text.Strict

namespace ClassGraph

theorem idxOf?_append_cons {α : Type} [DecidableEq α] {c : α} {u : List α} (h : c ∉ u)
    (v : List α) : (u ++ c :: v).idxOf? c = some u.length := by
  induction u with
  | nil => simp [List.idxOf?_cons]
  | cons b u ih =>
    have hb : b ≠ c := fun e => h (e ▸ List.mem_cons_self ..)
    have hu : c ∉ u := fun hm => h (List.mem_cons_of_mem _ hm)
    rw [List.cons_append, List.idxOf?_cons, if_neg (by simpa using hb), ih hu]
    rfl

namespace Utf8

variable {c : Char} {b : UInt8} {s u v w : Text} {bytes part : Bytes} {n i start stop : Nat}

/-! ## §1 Sizes -/

/-- The number of bytes of a text. -/
def size (s : Text) : Nat := (encode s).length

@[simp] theorem size_nil : size [] = 0 := rfl

@[simp] theorem size_append (u v : Text) : size (u ++ v) = size u + size v := by
  rw [size, encode_append, List.length_append]
  rfl

theorem size_cons (c : Char) (s : Text) : size (c :: s) = size [c] + size s := size_append [c] s

theorem size_singleton (c : Char) : size [c] = (encodeChar c).length := by
  rw [size, encode_cons, List.length_append]
  rfl

theorem size_pos (h : s ≠ []) : 0 < size s := by
  have hempty := isEmpty_encode s
  rw [List.isEmpty_eq_false_iff.2 h] at hempty
  exact List.length_pos_iff.2 (List.isEmpty_eq_false_iff.1 hempty)

/-- The byte of an ASCII character. -/
def byte (c : Char) : UInt8 := c.toNat.toUInt8

theorem encode_cons_ascii (h : c.toNat < 0x80) (s : Text) :
    encode (c :: s) = byte c :: encode s := by
  rw [encode_cons, encodeChar_ascii h]
  rfl

theorem size_cons_ascii (h : c.toNat < 0x80) (s : Text) : size (c :: s) = size s + 1 := by
  rw [size, encode_cons_ascii h, List.length_cons]
  rfl

/-- An ASCII character is found where the size of what precedes it says. -/
theorem idxOf?_encode (h : c.toNat < 0x80) (hu : c ∉ u) (v : Text) :
    (encode (u ++ c :: v)).idxOf? (byte c) = some (size u) := by
  have hbytes : byte c ∉ encode u := fun hm => hu ((ascii_mem_encode h).1 hm)
  rw [encode_append, encode_cons_ascii h, idxOf?_append_cons hbytes]
  rfl

theorem idxOf?_encode_eq_none (h : c.toNat < 0x80) (hs : c ∉ s) :
    (encode s).idxOf? (byte c) = none :=
  List.idxOf?_eq_none_iff.2 fun hm => hs ((ascii_mem_encode h).1 hm)

/-- An ASCII character begins a text whose first byte is that character's. -/
theorem head?_encode (h : c.toNat < 0x80) : (encode s).head? = some (byte c) ↔ s.head? = some c := by
  cases s with
  | nil => exact iff_of_false nofun nofun
  | cons d s =>
    obtain ⟨b, tail, hb, -⟩ := readChar_encodeChar d []
    rw [encode_cons, hb, List.cons_append, List.head?_cons, List.head?_cons, Option.some_inj,
      Option.some_inj]
    constructor
    · intro he
      refine (ascii_mem_encodeChar h).1 ?_
      rw [hb, he]
      exact List.mem_cons_self ..
    · rintro rfl
      rw [encodeChar_ascii h] at hb
      exact (List.cons_eq_cons.1 hb).1.symm

/-! ## §2 Boundaries -/

/-- What goes wrong where bytes are handled by positions. -/
inductive Misstep where
  /-- A part does not lie in the bytes, or cuts a character through. -/
  | outside (start stop : Nat)
  /-- A count of what is open is lowered where nothing is. -/
  | belowZero (position : Nat)
  deriving DecidableEq, Repr

/-- Whether a position lies in the bytes and not inside a character. -/
def isBoundary (bytes : Bytes) (i : Nat) : Bool :=
  i == 0 || i == bytes.length || bytes[i]?.any fun b => !isTail b

theorem le_of_isBoundary (h : isBoundary bytes i = true) : i ≤ bytes.length := by
  simp only [isBoundary, Bool.or_eq_true, beq_iff_eq] at h
  rcases h with (rfl | rfl) | h
  · exact Nat.zero_le _
  · exact Nat.le_refl _
  · by_contra hlong
    rw [List.getElem?_eq_none (by omega)] at h
    cases h

theorem isTail_of_mem_tailOf (h : b ∈ tailOf n) : isTail b = true := by
  unfold tailOf at h
  split at h
  · cases h
  split at h
  · simp only [List.mem_cons, List.not_mem_nil, or_false] at h
    subst h
    exact isTail_toUInt8 (by omega)
  split at h
  · simp only [List.mem_cons, List.not_mem_nil, or_false] at h
    rcases h with rfl | rfl <;> exact isTail_toUInt8 (by omega)
  · simp only [List.mem_cons, List.not_mem_nil, or_false] at h
    rcases h with rfl | rfl | rfl <;> exact isTail_toUInt8 (by omega)

theorem isTail_leadOf (c : Char) : isTail (leadOf c.toNat).toUInt8 = false := by
  have hvalid := toNat_valid c
  have hlead : leadOf c.toNat < 0x80 ∨ 0xC0 ≤ leadOf c.toNat := by
    unfold leadOf
    repeat' split
    all_goals omega
  simp only [isTail, toNat_toUInt8 (leadOf_lt (n := c.toNat) (by omega)), Bool.and_eq_false_iff,
    decide_eq_false_iff_not]
  omega

/-- A text has a boundary behind each of its beginnings. -/
theorem isBoundary_encode (u v : Text) : isBoundary (encode (u ++ v)) (size u) = true := by
  simp only [isBoundary, Bool.or_eq_true, beq_iff_eq]
  cases v with
  | nil => exact .inl (.inr (by rw [List.append_nil, size]))
  | cons c v =>
    refine .inr ?_
    rw [encode_append, size, List.getElem?_append_right (Nat.le_refl _), Nat.sub_self, encode_cons,
      encodeChar_eq]
    simp [isTail_leadOf]

/-- A boundary behind the start of a text does not lie in its first character. -/
theorem isBoundary_of_cons (hi : i ≠ 0) (h : isBoundary (encode (c :: s)) i = true) :
    ∃ j, i = size [c] + j ∧ isBoundary (encode s) j = true := by
  have hfirst : size [c] = (tailOf c.toNat).length + 1 := by
    rw [size_singleton, encodeChar_eq, List.length_cons]
  have hwhole : (encode (c :: s)).length = size [c] + (encode s).length := size_cons c s
  simp only [isBoundary, Bool.or_eq_true, beq_iff_eq, hi, false_or, hwhole] at h ⊢
  by_cases hin : i < size [c]
  · -- inside the first character stand continuation bytes
    exfalso
    obtain ⟨j, rfl⟩ := Nat.exists_eq_succ_of_ne_zero hi
    have hj : j < (tailOf c.toNat).length := by omega
    rw [encode_cons, encodeChar_eq, List.cons_append, List.getElem?_cons_succ,
      List.getElem?_append_left hj, List.getElem?_eq_getElem hj] at h
    simp only [Option.any_some, isTail_of_mem_tailOf (List.getElem_mem hj)] at h
    rcases h with h | h
    · omega
    · cases h
  · obtain ⟨j, rfl⟩ := Nat.exists_eq_add_of_le (Nat.le_of_not_lt hin)
    refine ⟨j, rfl, h.imp (fun he => .inr (by omega)) fun hbyte => ?_⟩
    have hskip : (encode (c :: s))[size [c] + j]? = (encode s)[j]? := by
      rw [encode_cons, encodeChar_eq, hfirst, List.getElem?_append_right (by simp),
        List.length_cons, Nat.add_sub_cancel_left]
    rwa [hskip] at hbyte

/-- The boundaries of a text are the sizes of its beginnings. -/
theorem isBoundary_encode_iff :
    isBoundary (encode s) i = true ↔ ∃ u v, s = u ++ v ∧ i = size u := by
  constructor
  · intro h
    induction s generalizing i with
    | nil => exact ⟨[], [], rfl, Nat.le_zero.1 (le_of_isBoundary h)⟩
    | cons c s ih =>
      by_cases hi : i = 0
      · exact ⟨[], c :: s, rfl, hi⟩
      obtain ⟨j, rfl, hj⟩ := isBoundary_of_cons hi h
      obtain ⟨u, v, rfl, rfl⟩ := ih hj
      exact ⟨c :: u, v, rfl, (size_cons c u).symm⟩
  · rintro ⟨u, v, rfl, rfl⟩
    exact isBoundary_encode u v

/-! ## §3 Parts -/

/-- The bytes from one position to another, as long as both are boundaries. -/
def slice? (bytes : Bytes) (start stop : Nat) : Except Misstep Bytes :=
  if start ≤ stop ∧ isBoundary bytes start = true ∧ isBoundary bytes stop = true then
    .ok ((bytes.take stop).drop start)
  else .error (.outside start stop)

theorem slice?_eq_ok (h : slice? bytes start stop = .ok part) :
    start ≤ stop ∧ stop ≤ bytes.length ∧ part.length = stop - start := by
  unfold slice? at h
  split at h
  · next hbounds =>
    cases h
    have hstop := le_of_isBoundary hbounds.2.2
    refine ⟨hbounds.1, hstop, ?_⟩
    rw [List.length_drop, List.length_take, Nat.min_eq_left hstop]
  · cases h

/-- Between the sizes of two beginnings stands a text. -/
theorem slice?_encode (hs : s = u ++ (v ++ w)) (hstart : start = size u)
    (hstop : stop = size u + size v) : slice? (encode s) start stop = .ok (encode v) := by
  have hleft : isBoundary (encode s) start = true := by
    rw [hs, hstart]
    exact isBoundary_encode u (v ++ w)
  have hright : isBoundary (encode s) stop = true := by
    rw [hs, hstop, ← List.append_assoc, ← size_append]
    exact isBoundary_encode (u ++ v) w
  have hbytes : encode s = encode u ++ encode v ++ encode w := by
    rw [hs, encode_append, encode_append, List.append_assoc]
  rw [slice?, if_pos ⟨by omega, hleft, hright⟩, hbytes,
    List.take_left' (by rw [List.length_append, hstop]; rfl), List.drop_left' hstart.symm]

theorem slice?_encode_end (hs : s = u ++ v) (hstart : start = size u) :
    slice? (encode s) start (encode s).length = .ok (encode v) :=
  slice?_encode (w := []) (by rw [hs, List.append_nil]) hstart (by
    rw [hs, ← size_append]
    rfl)

end Utf8

end ClassGraph
