/-
ClassGraph.Proofs.Text.Strict — bytes that are read as text are the bytes that
the text is written in.

Reading accepts one form for each character: the first byte tells the length,
the least and the greatest second byte keep out longer forms than needed and
numbers that are no characters. So what is read from bytes is written back as
those bytes (`encode_of_decode`), and what is counted in the text is counted
in the bytes. For ASCII characters that is the number of bytes of that value,
since the bytes of longer forms lie above all of ASCII: `count_encode`.
-/
import ClassGraph.Proofs.Path.Below
import ClassGraph.Proofs.Text.ByteOrder

namespace ClassGraph.Utf8

variable {n : Nat} {b b₁ b₂ b₃ : UInt8} {rest left bytes : Bytes} {c : Char} {s : Text}

/-! ## §1 One character -/

theorem toUInt8_eq (h : n = b.toNat) : n.toUInt8 = b := by
  rw [h]
  exact UInt8.ofNat_toNat

theorem toNat_ofNat_of_isValidChar (h : n.isValidChar) : (Char.ofNat n).toNat = n := by
  rw [Char.ofNat, dif_pos h]
  rfl

theorem encodeChar_ofNat (h : n.isValidChar) :
    encodeChar (Char.ofNat n) = (leadOf n).toUInt8 :: tailOf n := by
  rw [encodeChar_eq, toNat_ofNat_of_isValidChar h]

theorem payload_lt (h : isTail b = true) : payload b < 0x40 ∧ 0x80 + payload b = b.toNat := by
  simp only [isTail, Bool.and_eq_true, decide_eq_true_eq] at h
  unfold payload
  omega

/-- The second byte is a continuation byte, and not just any behind four of the first bytes. -/
theorem bounds_of_isSecond (h : isSecond b b₁ = true) :
    0x80 ≤ b₁.toNat ∧ b₁.toNat ≤ 0xBF ∧ (b.toNat = 0xE0 → 0xA0 ≤ b₁.toNat) ∧
      (b.toNat = 0xF0 → 0x90 ≤ b₁.toNat) ∧ (b.toNat = 0xED → b₁.toNat ≤ 0x9F) ∧
      (b.toNat = 0xF4 → b₁.toNat ≤ 0x8F) := by
  simp only [isSecond, Bool.and_eq_true, decide_eq_true_eq] at h
  obtain ⟨hleast, hgreatest⟩ := h
  unfold secondLeast at hleast
  unfold secondGreatest at hgreatest
  repeat' split at hleast
  all_goals repeat' split at hgreatest
  all_goals omega

theorem isTail_of_isSecond (h : isSecond b b₁ = true) : isTail b₁ = true := by
  obtain ⟨hleast, hgreatest, -⟩ := bounds_of_isSecond h
  simp only [isTail, hleast, hgreatest, decide_true, Bool.and_self]

theorem encodeChar_one (h : b.toNat < 0x80) : encodeChar (Char.ofNat b.toNat) = [b] := by
  rw [encodeChar_ofNat (by unfold Nat.isValidChar; omega), leadOf, tailOf, if_pos h, if_pos h,
    toUInt8_eq rfl]

theorem encodeChar_two (lo : 0xC2 ≤ b.toNat) (hi : b.toNat < 0xE0)
    (h₁ : isSecond b b₁ = true) :
    encodeChar (Char.ofNat ((b.toNat - 0xC0) * 0x40 + payload b₁)) = [b, b₁] := by
  have hsecond := bounds_of_isSecond h₁
  obtain ⟨hlt, hbyte⟩ := payload_lt (isTail_of_isSecond h₁)
  generalize hn : (b.toNat - 0xC0) * 0x40 + payload b₁ = n
  rw [encodeChar_ofNat (by unfold Nat.isValidChar; omega), leadOf, tailOf,
    if_neg (by omega), if_pos (by omega), if_neg (by omega), if_pos (by omega),
    toUInt8_eq (b := b) (by omega), toUInt8_eq (b := b₁) (by omega)]

theorem encodeChar_three (lo : 0xE0 ≤ b.toNat) (hi : b.toNat < 0xF0)
    (h₁ : isSecond b b₁ = true) (h₂ : isTail b₂ = true) :
    encodeChar (Char.ofNat ((b.toNat - 0xE0) * 0x1000 + payload b₁ * 0x40 + payload b₂))
      = [b, b₁, b₂] := by
  have hsecond := bounds_of_isSecond h₁
  obtain ⟨hlt₁, hbyte₁⟩ := payload_lt (isTail_of_isSecond h₁)
  obtain ⟨hlt₂, hbyte₂⟩ := payload_lt h₂
  generalize hn : (b.toNat - 0xE0) * 0x1000 + payload b₁ * 0x40 + payload b₂ = n
  rw [encodeChar_ofNat (by unfold Nat.isValidChar; omega), leadOf, tailOf,
    if_neg (by omega), if_neg (by omega), if_pos (by omega), if_neg (by omega),
    if_neg (by omega), if_pos (by omega), toUInt8_eq (b := b) (by omega),
    toUInt8_eq (b := b₁) (by omega), toUInt8_eq (b := b₂) (by omega)]

theorem encodeChar_four (lo : 0xF0 ≤ b.toNat) (hi : b.toNat ≤ 0xF4)
    (h₁ : isSecond b b₁ = true) (h₂ : isTail b₂ = true) (h₃ : isTail b₃ = true) :
    encodeChar (Char.ofNat ((b.toNat - 0xF0) * 0x40000 + payload b₁ * 0x1000 + payload b₂ * 0x40
      + payload b₃)) = [b, b₁, b₂, b₃] := by
  have hsecond := bounds_of_isSecond h₁
  obtain ⟨hlt₁, hbyte₁⟩ := payload_lt (isTail_of_isSecond h₁)
  obtain ⟨hlt₂, hbyte₂⟩ := payload_lt h₂
  obtain ⟨hlt₃, hbyte₃⟩ := payload_lt h₃
  generalize hn : (b.toNat - 0xF0) * 0x40000 + payload b₁ * 0x1000 + payload b₂ * 0x40
    + payload b₃ = n
  rw [encodeChar_ofNat (by unfold Nat.isValidChar; omega), leadOf, tailOf,
    if_neg (by omega), if_neg (by omega), if_neg (by omega), if_neg (by omega),
    if_neg (by omega), if_neg (by omega), toUInt8_eq (b := b) (by omega),
    toUInt8_eq (b := b₁) (by omega), toUInt8_eq (b := b₂) (by omega),
    toUInt8_eq (b := b₃) (by omega)]

/-- A character that is read stands there as it is written. -/
theorem encodeChar_of_readChar (h : readChar b rest = .ok (c, left)) :
    b :: rest = encodeChar c ++ left := by
  revert h
  fun_cases readChar b rest with
  | case1 rest hone =>
    intro h
    obtain ⟨rfl, rfl⟩ := Prod.mk.inj (Except.ok.inj h)
    rw [encodeChar_one hone]
    rfl
  | case5 hone hlead b₁ rest h₁ htwo =>
    intro h
    obtain ⟨rfl, rfl⟩ := Prod.mk.inj (Except.ok.inj h)
    rw [encodeChar_two (by omega) htwo (Bool.not_eq_false _ ▸ h₁)]
    rfl
  | case8 hone hlead b₁ h₁ htwo b₂ rest h₂ hthree =>
    intro h
    obtain ⟨rfl, rfl⟩ := Prod.mk.inj (Except.ok.inj h)
    rw [encodeChar_three (by omega) hthree (Bool.not_eq_false _ ▸ h₁) (Bool.not_eq_false _ ▸ h₂)]
    rfl
  | case11 hone hlead b₁ h₁ htwo b₂ h₂ hthree b₃ rest h₃ =>
    intro h
    obtain ⟨rfl, rfl⟩ := Prod.mk.inj (Except.ok.inj h)
    rw [encodeChar_four (by omega) (by omega) (Bool.not_eq_false _ ▸ h₁)
      (Bool.not_eq_false _ ▸ h₂) (Bool.not_eq_false _ ▸ h₃)]
    rfl
  | _ =>
    intro h
    cases h

/-! ## §2 Text -/

theorem encode_append (s t : Text) : encode (s ++ t) = encode s ++ encode t := List.flatMap_append

theorem encode_cons (c : Char) (s : Text) : encode (c :: s) = encodeChar c ++ encode s :=
  List.flatMap_cons

theorem isEmpty_encode (s : Text) : (encode s).isEmpty = s.isEmpty := by
  cases s with
  | nil => rfl
  | cons c s =>
    obtain ⟨b, tail, hb, -⟩ := readChar_encodeChar c []
    rw [encode_cons, hb]
    rfl

theorem encode_of_decodeFrom {start : Nat} (h : decodeFrom start bytes = .ok s) :
    encode s = bytes := by
  fun_induction decodeFrom start bytes generalizing s with
  | case1 =>
    cases h
    rfl
  | case2 => cases h
  | case3 start b rest c left hread _ ih =>
    cases hd : decodeFrom (start + (rest.length + 1 - left.length)) left with
    | error e =>
      rw [hd] at h
      cases h
    | ok t =>
      rw [hd] at h
      cases h
      rw [encode_cons, ih hd, encodeChar_of_readChar hread]

/-- Bytes that are text are those that the text is written in. -/
theorem encode_of_decode (h : decode bytes = .ok s) : encode s = bytes := encode_of_decodeFrom h

/-! ## §3 ASCII in text -/

theorem encodeChar_ascii (h : c.toNat < 0x80) : encodeChar c = [c.toNat.toUInt8] := by
  simp only [encodeChar, if_pos h]

/-- The byte of an ASCII character belongs to no other character. -/
theorem ascii_mem_encodeChar {d : Char} (h : c.toNat < 0x80) :
    c.toNat.toUInt8 ∈ encodeChar d ↔ d = c := by
  constructor
  · intro hm
    have hbyte := Path.toNat_of_mem_encodeChar hm
    rw [toNat_toUInt8 (by omega)] at hbyte
    exact Char.toNat_inj.1 (by omega)
  · rintro rfl
    rw [encodeChar_ascii h]
    exact List.mem_singleton.2 rfl

theorem ascii_mem_encode (h : c.toNat < 0x80) : c.toNat.toUInt8 ∈ encode s ↔ c ∈ s := by
  rw [encode, List.mem_flatMap]
  constructor
  · rintro ⟨d, hd, hm⟩
    rwa [← (ascii_mem_encodeChar h).1 hm]
  · intro hc
    exact ⟨c, hc, (ascii_mem_encodeChar h).2 rfl⟩

/-- An ASCII character stands in a text as often as its byte in the bytes. -/
theorem count_encode (h : c.toNat < 0x80) (s : Text) :
    (encode s).count c.toNat.toUInt8 = s.count c := by
  induction s with
  | nil => rfl
  | cons d s ih =>
    rw [encode_cons, List.count_append, ih, List.count_cons, Nat.add_comm]
    by_cases hd : d = c
    · rw [hd, encodeChar_ascii h]
      simp
    · have hnone := List.count_eq_zero.2 fun hm => hd ((ascii_mem_encodeChar h).1 hm)
      rw [hnone]
      simp [hd]

end ClassGraph.Utf8
