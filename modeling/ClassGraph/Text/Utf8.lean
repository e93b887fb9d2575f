/-
ClassGraph.Text.Utf8 — the encoding of text as bytes: writing, strict
reading that says where and how it fails, and lenient reading for display.

A character is read by its first byte, which fixes how many continuation
bytes it owes and the least and greatest second byte (this is what keeps
overlong forms and surrogates out). Reading fails in one of two ways: some
byte cannot stand where it does (`invalid`, with the length of the prefix
that could have begun a character), or the bytes end inside a character
(`truncated`). The main statements:

  * `readChar_encodeChar` — a written character is read back;
  * `decode_encode`       — written text is read back.
-/
import ClassGraph.Text.Basic

namespace ClassGraph.Utf8

/-! ## §1 Writing -/

/-- The bytes of a character. -/
def encodeChar (c : Char) : Bytes :=
  let n := c.toNat
  if n < 0x80 then [n.toUInt8]
  else if n < 0x800 then [(0xC0 + n / 0x40).toUInt8, (0x80 + n % 0x40).toUInt8]
  else if n < 0x10000 then
    [(0xE0 + n / 0x1000).toUInt8, (0x80 + n / 0x40 % 0x40).toUInt8, (0x80 + n % 0x40).toUInt8]
  else
    [(0xF0 + n / 0x40000).toUInt8, (0x80 + n / 0x1000 % 0x40).toUInt8,
      (0x80 + n / 0x40 % 0x40).toUInt8, (0x80 + n % 0x40).toUInt8]

def encode (s : Text) : Bytes := s.flatMap encodeChar

/-! ## §2 Reading one character -/

/-- Why no character can be read at a place. -/
inductive Fault where
  /-- The first `length` bytes begin no character. -/
  | invalid (length : Nat)
  /-- The bytes end inside a character. -/
  | truncated
  deriving DecidableEq, Repr

def isTail (b : UInt8) : Bool := 0x80 ≤ b.toNat && b.toNat ≤ 0xBF

/-- The least second byte of a longer character that begins with `n`. -/
def secondLeast (n : Nat) : Nat :=
  if n = 0xE0 then 0xA0 else if n = 0xF0 then 0x90 else 0x80

/-- The greatest second byte of a longer character that begins with `n`. -/
def secondGreatest (n : Nat) : Nat :=
  if n = 0xED then 0x9F else if n = 0xF4 then 0x8F else 0xBF

/-- Whether `b₁` may be the second byte of a character that begins with `b`. -/
def isSecond (b b₁ : UInt8) : Bool :=
  secondLeast b.toNat ≤ b₁.toNat && b₁.toNat ≤ secondGreatest b.toNat

/-- The six low bits that a continuation byte carries. -/
def payload (b : UInt8) : Nat := b.toNat - 0x80

/-- The character at the front of `b :: rest`, and what follows it. -/
def readChar (b : UInt8) (rest : Bytes) : Except Fault (Char × Bytes) :=
  if b.toNat < 0x80 then .ok (Char.ofNat b.toNat, rest)
  else if b.toNat < 0xC2 ∨ 0xF4 < b.toNat then .error (.invalid 1)
  else
    match rest with
    | [] => .error .truncated
    | b₁ :: rest =>
      if isSecond b b₁ = false then .error (.invalid 1)
      else if b.toNat < 0xE0 then
        .ok (Char.ofNat ((b.toNat - 0xC0) * 0x40 + payload b₁), rest)
      else
        match rest with
        | [] => .error .truncated
        | b₂ :: rest =>
          if isTail b₂ = false then .error (.invalid 2)
          else if b.toNat < 0xF0 then
            .ok (Char.ofNat ((b.toNat - 0xE0) * 0x1000 + payload b₁ * 0x40 + payload b₂), rest)
          else
            match rest with
            | [] => .error .truncated
            | b₃ :: rest =>
              if isTail b₃ = false then .error (.invalid 3)
              else
                .ok (Char.ofNat ((b.toNat - 0xF0) * 0x40000 + payload b₁ * 0x1000
                  + payload b₂ * 0x40 + payload b₃), rest)

/-- A character takes at least its first byte. -/
theorem readChar_length {b : UInt8} {rest left : Bytes} {c : Char}
    (h : readChar b rest = .ok (c, left)) : left.length ≤ rest.length := by
  revert h
  fun_cases readChar b rest <;> intro h <;> simp at h <;> obtain ⟨_, rfl⟩ := h <;>
    simp <;> omega

/-! ## §3 Reading text -/

/-- Where the bytes stop being text, and why. -/
structure DecodeError where
  /-- The number of bytes before the fault, all of them good. -/
  validUpTo : Nat
  fault : Fault
  deriving DecidableEq, Repr

/-- The fault as a sentence. -/
def DecodeError.message (e : DecodeError) : Text :=
  match e.fault with
  | .invalid n =>
    "invalid utf-8 sequence of ".toList ++ decimal n ++ " bytes from index ".toList
      ++ decimal e.validUpTo
  | .truncated =>
    "incomplete utf-8 byte sequence from index ".toList ++ decimal e.validUpTo

/-- Reads bytes of which `at` have been read before them. -/
def decodeFrom (start : Nat) (bytes : Bytes) : Except DecodeError Text :=
  match bytes with
  | [] => .ok []
  | b :: rest =>
    match h : readChar b rest with
    | .error fault => .error ⟨start, fault⟩
    | .ok (c, left) =>
      have := readChar_length h
      (decodeFrom (start + (rest.length + 1 - left.length)) left).map (c :: ·)
termination_by bytes.length
decreasing_by simp only [List.length_cons]; omega

/-- The text that the bytes encode, or the first fault. -/
def decode (bytes : Bytes) : Except DecodeError Text := decodeFrom 0 bytes

theorem length_decodeFrom_le {start : Nat} {bytes : Bytes} {s : Text}
    (h : decodeFrom start bytes = .ok s) : s.length ≤ bytes.length := by
  fun_induction decodeFrom start bytes generalizing s with
  | case1 =>
    cases h
    simp
  | case2 => cases h
  | case3 start b rest c left hread _ ih =>
    cases hd : decodeFrom (start + (rest.length + 1 - left.length)) left with
    | error e =>
      rw [hd] at h
      cases h
    | ok t =>
      rw [hd] at h
      cases h
      have hleft := readChar_length hread
      have htail := ih hd
      simp only [List.length_cons]
      omega

/-- A text has no more characters than bytes. -/
theorem length_decode_le {bytes : Bytes} {s : Text} (h : decode bytes = .ok s) :
    s.length ≤ bytes.length :=
  length_decodeFrom_le h

/-- The text of the bytes, each faulty stretch shown as U+FFFD. -/
def lenient (bytes : Bytes) : Text :=
  match bytes with
  | [] => []
  | b :: rest =>
    match h : readChar b rest with
    | .error .truncated => ['\uFFFD']
    | .error (.invalid n) => '\uFFFD' :: lenient (rest.drop (n - 1))
    | .ok (c, left) =>
      have := readChar_length h
      c :: lenient left
termination_by bytes.length
decreasing_by
  all_goals simp only [List.length_cons, List.length_drop]; omega

/-! ## §4 Reading what was written -/

theorem toNat_valid (c : Char) :
    c.toNat < 0xD800 ∨ (0xDFFF < c.toNat ∧ c.toNat < 0x110000) :=
  c.valid

theorem toNat_toUInt8 {n : Nat} (h : n < 256) : n.toUInt8.toNat = n := by
  simp [Nat.toUInt8, Nat.mod_eq_of_lt h]

theorem readChar_one {b : UInt8} (rest : Bytes) (h : b.toNat < 0x80) :
    readChar b rest = .ok (Char.ofNat b.toNat, rest) := by
  unfold readChar
  rw [if_pos h]

theorem readChar_two {b b₁ : UInt8} (rest : Bytes) (lo : 0xC2 ≤ b.toNat) (hi : b.toNat < 0xE0)
    (h₁ : isSecond b b₁ = true) :
    readChar b (b₁ :: rest) =
      .ok (Char.ofNat ((b.toNat - 0xC0) * 0x40 + payload b₁), rest) := by
  unfold readChar
  rw [if_neg (by omega), if_neg (by omega)]
  simp only [h₁]
  rw [if_neg (by decide), if_pos hi]

theorem readChar_three {b b₁ b₂ : UInt8} (rest : Bytes) (lo : 0xE0 ≤ b.toNat)
    (hi : b.toNat < 0xF0) (h₁ : isSecond b b₁ = true) (h₂ : isTail b₂ = true) :
    readChar b (b₁ :: b₂ :: rest) =
      .ok (Char.ofNat ((b.toNat - 0xE0) * 0x1000 + payload b₁ * 0x40 + payload b₂), rest) := by
  unfold readChar
  rw [if_neg (by omega), if_neg (by omega)]
  simp only [h₁, h₂]
  rw [if_neg (by decide), if_neg (by omega), if_neg (by decide), if_pos hi]

theorem readChar_four {b b₁ b₂ b₃ : UInt8} (rest : Bytes) (lo : 0xF0 ≤ b.toNat)
    (hi : b.toNat ≤ 0xF4) (h₁ : isSecond b b₁ = true) (h₂ : isTail b₂ = true)
    (h₃ : isTail b₃ = true) :
    readChar b (b₁ :: b₂ :: b₃ :: rest) =
      .ok (Char.ofNat ((b.toNat - 0xF0) * 0x40000 + payload b₁ * 0x1000 + payload b₂ * 0x40
        + payload b₃), rest) := by
  unfold readChar
  rw [if_neg (by omega), if_neg (by omega)]
  simp only [h₁, h₂, h₃]
  rw [if_neg (by decide), if_neg (by omega), if_neg (by decide), if_neg (by omega),
    if_neg (by decide)]

theorem payload_toUInt8 {n : Nat} (h : n < 0x40) : payload (0x80 + n).toUInt8 = n := by
  have e := toNat_toUInt8 (n := 0x80 + n) (by omega)
  unfold payload
  rw [e]
  omega

theorem isTail_toUInt8 {n : Nat} (h : n < 0x40) : isTail (0x80 + n).toUInt8 = true := by
  have hi : 0x80 + n ≤ 0xBF := by omega
  unfold isTail
  rw [toNat_toUInt8 (n := 0x80 + n) (by omega)]
  simp only [Nat.le_add_right, hi, decide_true, Bool.and_self]

theorem isSecond_toUInt8 {m n : Nat} (hm : m < 256) (h : n < 0x40)
    (lo : secondLeast m ≤ 0x80 + n) (hi : 0x80 + n ≤ secondGreatest m) :
    isSecond m.toUInt8 (0x80 + n).toUInt8 = true := by
  unfold isSecond
  rw [toNat_toUInt8 hm, toNat_toUInt8 (n := 0x80 + n) (by omega)]
  simp only [lo, hi, decide_true, Bool.and_self]

/-- A written character is read back, whatever follows it. -/
theorem readChar_encodeChar (c : Char) (rest : Bytes) :
    ∃ b tail, encodeChar c = b :: tail ∧ readChar b (tail ++ rest) = .ok (c, rest) := by
  have hv := toNat_valid c
  have hc : Char.ofNat c.toNat = c := Char.ofNat_toNat c
  simp only [encodeChar]
  generalize c.toNat = n at hv hc ⊢
  split
  · next h =>
    refine ⟨_, _, rfl, ?_⟩
    have e := toNat_toUInt8 (n := n) (by omega)
    rw [List.nil_append, readChar_one _ (by rw [e]; exact h), e, hc]
  split
  · next h =>
    refine ⟨_, _, rfl, ?_⟩
    have e := toNat_toUInt8 (n := 0xC0 + n / 0x40) (by omega)
    have hs := isSecond_toUInt8 (m := 0xC0 + n / 0x40) (n := n % 0x40) (by omega) (by omega)
      (by unfold secondLeast; repeat' split
          all_goals omega)
      (by unfold secondGreatest; repeat' split
          all_goals omega)
    have hn : (0xC0 + n / 0x40 - 0xC0) * 0x40 + n % 0x40 = n := by omega
    rw [List.cons_append, List.nil_append,
      readChar_two rest (by rw [e]; omega) (by rw [e]; omega) hs,
      e, payload_toUInt8 (by omega), hn, hc]
  split
  · next h =>
    refine ⟨_, _, rfl, ?_⟩
    have e := toNat_toUInt8 (n := 0xE0 + n / 0x1000) (by omega)
    have hs := isSecond_toUInt8 (m := 0xE0 + n / 0x1000) (n := n / 0x40 % 0x40) (by omega)
      (by omega)
      (by unfold secondLeast; repeat' split
          all_goals omega)
      (by unfold secondGreatest; repeat' split
          all_goals omega)
    have hn : (0xE0 + n / 0x1000 - 0xE0) * 0x1000 + n / 0x40 % 0x40 * 0x40 + n % 0x40 = n := by
      omega
    rw [List.cons_append, List.cons_append, List.nil_append,
      readChar_three rest (by rw [e]; omega) (by rw [e]; omega) hs (isTail_toUInt8 (by omega)),
      e, payload_toUInt8 (by omega), payload_toUInt8 (by omega), hn, hc]
  · refine ⟨_, _, rfl, ?_⟩
    have e := toNat_toUInt8 (n := 0xF0 + n / 0x40000) (by omega)
    have hs := isSecond_toUInt8 (m := 0xF0 + n / 0x40000) (n := n / 0x1000 % 0x40) (by omega)
      (by omega)
      (by unfold secondLeast; repeat' split
          all_goals omega)
      (by unfold secondGreatest; repeat' split
          all_goals omega)
    have hn : (0xF0 + n / 0x40000 - 0xF0) * 0x40000 + n / 0x1000 % 0x40 * 0x1000
        + n / 0x40 % 0x40 * 0x40 + n % 0x40 = n := by
      omega
    rw [List.cons_append, List.cons_append, List.cons_append, List.nil_append,
      readChar_four rest (by rw [e]; omega) (by rw [e]; omega) hs (isTail_toUInt8 (by omega))
        (isTail_toUInt8 (by omega)),
      e, payload_toUInt8 (by omega), payload_toUInt8 (by omega), payload_toUInt8 (by omega),
      hn, hc]

theorem decodeFrom_encode (start : Nat) (s : Text) : decodeFrom start (encode s) = .ok s := by
  induction s generalizing start with
  | nil => simp [encode, decodeFrom]
  | cons c s ih =>
    obtain ⟨b, tail, hb, hr⟩ := readChar_encodeChar c (encode s)
    have he : encode (c :: s) = b :: (tail ++ encode s) := by
      simp only [encode, List.flatMap_cons, hb, List.cons_append]
    rw [he, decodeFrom]
    split
    · next h => rw [hr] at h; cases h
    · next h =>
      rw [hr] at h
      cases h
      rw [ih]
      rfl

/-- Written text is read back. -/
theorem decode_encode (s : Text) : decode (encode s) = .ok s := decodeFrom_encode 0 s

end ClassGraph.Utf8
