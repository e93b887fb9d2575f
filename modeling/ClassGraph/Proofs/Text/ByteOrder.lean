/-
ClassGraph.Proofs.Text.ByteOrder — text in the order of its bytes.

Text is compared character by character. The encoding keeps that order: the
first byte does not fall as characters rise, longer forms beginning with
greater bytes than shorter ones, and where two characters share the first
byte they have the same form, and the payloads decide (`encodeChar_lt`). So
texts stand in the order of their characters exactly where their bytes do:
`encode_lt_iff`.
-/
import ClassGraph.SortedMap
import ClassGraph.Text.Utf8

namespace ClassGraph.Utf8

variable {n m : Nat} {x y : Bytes}

/-! ## §1 Bytes by their numbers -/

theorem cons_lt_of_lt (hm : m < 256) (h : n < m) (x y : Bytes) :
    n.toUInt8 :: x < m.toUInt8 :: y := by
  refine List.cons_lt_cons_iff.2 (.inl (UInt8.lt_iff_toNat_lt.2 ?_))
  rwa [toNat_toUInt8 (Nat.lt_trans h hm), toNat_toUInt8 hm]

theorem cons_lt_of_eq (h : n = m) (hxy : x < y) : n.toUInt8 :: x < m.toUInt8 :: y :=
  List.cons_lt_cons_iff.2 (.inr ⟨congrArg Nat.toUInt8 h, hxy⟩)

/-- The number of the first byte of the character `n`. -/
def leadOf (n : Nat) : Nat :=
  if n < 0x80 then n
  else if n < 0x800 then 0xC0 + n / 0x40
  else if n < 0x10000 then 0xE0 + n / 0x1000
  else 0xF0 + n / 0x40000

/-- The bytes of the character `n` after the first. -/
def tailOf (n : Nat) : Bytes :=
  if n < 0x80 then []
  else if n < 0x800 then [(0x80 + n % 0x40).toUInt8]
  else if n < 0x10000 then [(0x80 + n / 0x40 % 0x40).toUInt8, (0x80 + n % 0x40).toUInt8]
  else
    [(0x80 + n / 0x1000 % 0x40).toUInt8, (0x80 + n / 0x40 % 0x40).toUInt8,
      (0x80 + n % 0x40).toUInt8]

theorem encodeChar_eq (c : Char) : encodeChar c = (leadOf c.toNat).toUInt8 :: tailOf c.toNat := by
  unfold encodeChar leadOf tailOf
  simp only
  split
  · rfl
  split
  · rfl
  split <;> rfl

theorem leadOf_lt (h : n < 0x110000) : leadOf n < 256 := by
  unfold leadOf
  repeat' split
  all_goals omega

theorem leadOf_mono (h : n < m) (hm : m < 0x110000) : leadOf n ≤ leadOf m := by
  unfold leadOf
  repeat' split
  all_goals omega

/-- Behind the same first byte the payloads of the lesser character are less. -/
theorem tailOf_lt (h : n < m) (hlead : leadOf n = leadOf m) (hm : m < 0x110000) (x y : Bytes) :
    tailOf n ++ x < tailOf m ++ y := by
  unfold leadOf at hlead
  unfold tailOf
  by_cases h1 : m < 0x80
  · rw [if_pos h1, if_pos (by omega)] at hlead
    omega
  rw [if_neg h1] at hlead ⊢
  by_cases h2 : m < 0x800
  · rw [if_pos h2] at hlead ⊢
    have hn : ¬ n < 0x80 := fun hn => by
      rw [if_pos hn] at hlead
      omega
    rw [if_neg hn, if_pos (by omega)] at hlead ⊢
    exact cons_lt_of_lt (by omega) (by omega) x y
  rw [if_neg h2] at hlead ⊢
  by_cases h3 : m < 0x10000
  · rw [if_pos h3] at hlead ⊢
    have hn : ¬ n < 0x80 ∧ ¬ n < 0x800 := by
      repeat' split at hlead
      all_goals omega
    rw [if_neg hn.1, if_neg hn.2, if_pos (by omega)] at hlead ⊢
    by_cases hmiddle : n / 0x40 < m / 0x40
    · exact cons_lt_of_lt (by omega) (by omega) _ _
    · exact cons_lt_of_eq (by omega) (cons_lt_of_lt (by omega) (by omega) x y)
  · rw [if_neg h3] at hlead ⊢
    have hn : ¬ n < 0x80 ∧ ¬ n < 0x800 ∧ ¬ n < 0x10000 := by
      repeat' split at hlead
      all_goals omega
    rw [if_neg hn.1, if_neg hn.2.1, if_neg hn.2.2] at hlead ⊢
    by_cases hhigh : n / 0x1000 < m / 0x1000
    · exact cons_lt_of_lt (by omega) (by omega) _ _
    refine cons_lt_of_eq (by omega) ?_
    by_cases hmiddle : n / 0x40 < m / 0x40
    · exact cons_lt_of_lt (by omega) (by omega) _ _
    · exact cons_lt_of_eq (by omega) (cons_lt_of_lt (by omega) (by omega) x y)

/-! ## §2 Characters and text -/

/-- The bytes of a lesser character are less, whatever follows them. -/
theorem encodeChar_lt {c d : Char} (h : c < d) (x y : Bytes) :
    encodeChar c ++ x < encodeChar d ++ y := by
  have hlt : c.toNat < d.toNat := h
  have hd : d.toNat < 0x110000 := by
    have hvalid := toNat_valid d
    omega
  rw [encodeChar_eq, encodeChar_eq, List.cons_append, List.cons_append]
  rcases Nat.lt_or_eq_of_le (leadOf_mono hlt hd) with hlead | hlead
  · exact cons_lt_of_lt (leadOf_lt hd) hlead _ _
  · exact cons_lt_of_eq hlead (tailOf_lt hlt hlead hd x y)

theorem encode_lt_of_lt {s t : Text} (h : s < t) : encode s < encode t := by
  induction s generalizing t with
  | nil =>
    cases t with
    | nil => exact absurd h (List.lt_irrefl _)
    | cons d t =>
      rw [encode, encode, List.flatMap_cons, encodeChar_eq]
      exact List.nil_lt_cons _ _
  | cons c s ih =>
    cases t with
    | nil => exact absurd h (List.not_lt_nil _)
    | cons d t =>
      rw [encode, encode, List.flatMap_cons, List.flatMap_cons]
      rcases List.cons_lt_cons_iff.1 h with hlt | ⟨rfl, hlt⟩
      · exact encodeChar_lt hlt _ _
      · exact List.append_left_lt (ih hlt)

/-- Texts stand in the order in which their bytes stand. -/
theorem encode_lt_iff {s t : Text} : encode s < encode t ↔ s < t := by
  constructor
  · intro h
    by_cases hlt : s < t
    · exact hlt
    by_cases hgt : t < s
    · exact absurd (StrictOrder.trans h (encode_lt_of_lt hgt)) (StrictOrder.irrefl _)
    · rw [StrictOrder.eq_of_not_lt hlt hgt] at h
      exact absurd h (StrictOrder.irrefl _)
  · exact encode_lt_of_lt

end ClassGraph.Utf8
