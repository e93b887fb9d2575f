/-
ClassGraph.Text.Basic — text as lists of characters, and the cutting and
joining that names, paths and tables are made with.

The operations are stated for lists over any alphabet with decidable
equality: a path is cut at a byte, a name at a character, and the same
lemmas serve both. The main statements:

  * `join_cut`        — joining the pieces of a cut gives the list back;
  * `not_mem_of_mem_cut` — no piece of a cut holds the separator;
  * `beforeLast_append_afterLast` — a cut at the last separator loses
    nothing but that separator;
  * `readDecimal_decimal` — a number is read back from its digits.
-/

namespace ClassGraph

/-- Text is a list of characters. -/
abbrev Text := List Char

/-- A string of bytes. -/
abbrev Bytes := List UInt8

variable {α : Type} [DecidableEq α]

/-! ## §1 Cutting and joining -/

/-- The pieces between the separators; a list without one is its own piece. -/
def cut (sep : α) : List α → List (List α)
  | [] => [[]]
  | c :: s =>
    if c = sep then [] :: cut sep s
    else
      match cut sep s with
      | [] => [[c]]
      | piece :: rest => (c :: piece) :: rest

/-- The pieces in order, with `sep` between each two. -/
def join (sep : List α) : List (List α) → List α
  | [] => []
  | [piece] => piece
  | piece :: next :: rest => piece ++ sep ++ join sep (next :: rest)

omit [DecidableEq α] in
@[simp] theorem join_nil (sep : List α) : join sep [] = [] := rfl

omit [DecidableEq α] in
@[simp] theorem join_singleton (sep piece : List α) : join sep [piece] = piece := rfl

omit [DecidableEq α] in
theorem join_cons {sep piece : List α} {rest : List (List α)} (h : rest ≠ []) :
    join sep (piece :: rest) = piece ++ sep ++ join sep rest := by
  cases rest with
  | nil => exact absurd rfl h
  | cons next rest => rfl

theorem cut_ne_nil (sep : α) (s : List α) : cut sep s ≠ [] := by
  induction s with
  | nil => simp [cut]
  | cons c s ih =>
    unfold cut
    split
    · simp
    · split <;> simp

theorem cut_cons_sep (sep : α) (s : List α) : cut sep (sep :: s) = [] :: cut sep s := by
  simp [cut]

/-- A cut loses nothing: joining the pieces gives the list back. -/
theorem join_cut (sep : α) (s : List α) : join [sep] (cut sep s) = s := by
  induction s with
  | nil => rfl
  | cons c s ih =>
    unfold cut
    split
    · next h =>
      rw [join_cons (cut_ne_nil sep s), ih, h]
      rfl
    · split
      · next h => exact absurd h (cut_ne_nil sep s)
      · next piece rest h =>
        rw [h] at ih
        cases rest with
        | nil => simpa using ih
        | cons next rest => simpa [join] using ih

theorem not_mem_of_mem_cut {sep : α} {s piece : List α} (h : piece ∈ cut sep s) :
    sep ∉ piece := by
  induction s generalizing piece with
  | nil => simp [cut] at h; simp [h]
  | cons c s ih =>
    unfold cut at h
    split at h
    · rcases List.mem_cons.1 h with rfl | h
      · simp
      · exact ih h
    · next hc =>
      split at h
      · next he => exact absurd he (cut_ne_nil sep s)
      · next first rest he =>
        rcases List.mem_cons.1 h with rfl | h
        · have : sep ∉ first := ih (by simp [he])
          simp only [List.mem_cons, not_or]
          exact ⟨fun e => hc e.symm, this⟩
        · exact ih (by rw [he]; exact List.mem_cons_of_mem _ h)

/-- A list without the separator is one piece. -/
theorem cut_of_not_mem {sep : α} {s : List α} (h : sep ∉ s) : cut sep s = [s] := by
  induction s with
  | nil => rfl
  | cons c s ih =>
    simp only [List.mem_cons, not_or] at h
    unfold cut
    rw [if_neg (fun e => h.1 e.symm), ih h.2]

theorem cut_append_sep {sep : α} {s : List α} (h : sep ∉ s) (t : List α) :
    cut sep (s ++ sep :: t) = s :: cut sep t := by
  induction s with
  | nil => exact cut_cons_sep sep t
  | cons c s ih =>
    simp only [List.mem_cons, not_or] at h
    have hc : c ≠ sep := fun e => h.1 e.symm
    rw [List.cons_append]
    simp only [cut, if_neg hc]
    rw [ih h.2]

/-! ## §2 The last separator -/

omit [DecidableEq α] in
theorem of_mem_takeWhile {p : α → Bool} {s : List α} {c : α} (h : c ∈ s.takeWhile p) :
    p c = true :=
  List.all_eq_true.1 List.all_takeWhile c h

omit [DecidableEq α] in
theorem takeWhile_of_forall {p : α → Bool} {s : List α} (h : ∀ c ∈ s, p c = true) :
    s.takeWhile p = s := by
  have : (s ++ []).takeWhile p = s ++ [].takeWhile p := List.takeWhile_append_of_pos h
  simpa using this

/-- What follows the last element that satisfies `p`; all of it when none does. -/
def afterLast (p : α → Bool) (s : List α) : List α :=
  (s.reverse.takeWhile (fun c => !p c)).reverse

/-- What precedes the last element that satisfies `p`; nothing when none does. -/
def beforeLast (p : α → Bool) (s : List α) : List α :=
  ((s.reverse.dropWhile (fun c => !p c)).drop 1).reverse

omit [DecidableEq α] in
/-- Cutting at the last separator loses that separator alone. -/
theorem beforeLast_append_afterLast {p : α → Bool} {s : List α} (h : s.any p = true) :
    ∃ c, p c = true ∧ beforeLast p s ++ c :: afterLast p s = s := by
  have hsplit := List.takeWhile_append_dropWhile (p := fun c => !p c) (l := s.reverse)
  cases hd : s.reverse.dropWhile (fun c => !p c) with
  | nil =>
    rw [hd, List.append_nil] at hsplit
    obtain ⟨x, hx, hpx⟩ := List.any_eq_true.1 h
    have hall : (fun c => !p c) x = true :=
      of_mem_takeWhile (s := s.reverse) (by rw [hsplit]; exact List.mem_reverse.2 hx)
    simp [hpx] at hall
  | cons c rest =>
    refine ⟨c, ?_, ?_⟩
    · have := List.head_dropWhile_not (fun c => !p c) (l := s.reverse) (by rw [hd]; simp)
      simpa [hd] using this
    · have hrev := congrArg List.reverse hsplit
      rw [hd] at hrev
      simpa [beforeLast, afterLast, hd] using hrev

omit [DecidableEq α] in
theorem length_beforeLast_lt {p : α → Bool} {s : List α} (h : s.any p = true) :
    (beforeLast p s).length < s.length := by
  obtain ⟨c, _, he⟩ := beforeLast_append_afterLast h
  have := congrArg List.length he
  simp at this
  omega

omit [DecidableEq α] in
/-- Without a separator, all of the list follows the last one. -/
theorem afterLast_of_not_any {p : α → Bool} {s : List α} (h : s.any p = false) :
    afterLast p s = s := by
  have : s.reverse.takeWhile (fun c => !p c) = s.reverse :=
    takeWhile_of_forall fun x hx => by
      simpa using List.any_eq_false.1 h x (List.mem_reverse.1 hx)
  simp [afterLast, this]

omit [DecidableEq α] in
theorem not_of_mem_afterLast {p : α → Bool} {s : List α} {c : α} (h : c ∈ afterLast p s) :
    p c = false := by
  have := of_mem_takeWhile (List.mem_reverse.1 h)
  simpa using this

/-! ## §3 Parts -/

/-- Whether `part` stands somewhere in the list, without a gap. -/
def hasPart (part : List α) : List α → Bool
  | [] => part.isEmpty
  | c :: s => part.isPrefixOf (c :: s) || hasPart part s

theorem hasPart_iff {part s : List α} : hasPart part s = true ↔ part <:+: s := by
  induction s with
  | nil => simp [hasPart]
  | cons c s ih =>
    simp only [hasPart, Bool.or_eq_true, ih, List.isPrefixOf_iff_prefix]
    exact (List.infix_cons_iff).symm

/-- The list without `ending`, if it ends so. -/
def dropEnding? (ending s : List α) : Option (List α) :=
  if ending.isSuffixOf s then some (s.take (s.length - ending.length)) else none

theorem dropEnding?_eq_some {ending s t : List α} :
    dropEnding? ending s = some t ↔ s = t ++ ending := by
  unfold dropEnding?
  constructor
  · intro h
    split at h
    · next hs =>
      obtain ⟨u, rfl⟩ := List.isSuffixOf_iff_suffix.1 hs
      simp at h
      rw [h]
    · simp at h
  · rintro rfl
    have : ending.isSuffixOf (t ++ ending) = true :=
      List.isSuffixOf_iff_suffix.2 ⟨t, rfl⟩
    simp [this]

/-! ## §4 Decimal numbers -/

/-- The digit with the value `n`, for `n` below ten. -/
def digit (n : Nat) : Char := Char.ofNat (48 + n)

/-- A number in decimal digits, without leading zeros. -/
def decimal (n : Nat) : Text :=
  if n < 10 then [digit n] else decimal (n / 10) ++ [digit (n % 10)]

/-- The value of a string of digits, read on from `acc`. -/
def readDigits (acc : Nat) : Text → Option Nat
  | [] => some acc
  | c :: s => if c.isDigit then readDigits (acc * 10 + (c.toNat - 48)) s else none

/-- The value of a non-empty string of decimal digits. -/
def readDecimal (s : Text) : Option Nat :=
  if s.isEmpty then none else readDigits 0 s

theorem digit_isDigit {n : Nat} (h : n < 10) : (digit n).isDigit = true := by
  match n, h with
  | 0, _ | 1, _ | 2, _ | 3, _ | 4, _ | 5, _ | 6, _ | 7, _ | 8, _ | 9, _ => rfl

theorem digit_toNat {n : Nat} (h : n < 10) : (digit n).toNat - 48 = n := by
  match n, h with
  | 0, _ | 1, _ | 2, _ | 3, _ | 4, _ | 5, _ | 6, _ | 7, _ | 8, _ | 9, _ => rfl

theorem readDigits_append (acc : Nat) (s t : Text) :
    readDigits acc (s ++ t) = (readDigits acc s).bind (fun n => readDigits n t) := by
  induction s generalizing acc with
  | nil => rfl
  | cons c s ih =>
    simp only [List.cons_append, readDigits]
    split
    · exact ih _
    · rfl

theorem readDigits_decimal (n : Nat) : readDigits 0 (decimal n) = some n := by
  induction n using decimal.induct with
  | case1 n h =>
    rw [decimal, if_pos h]
    simp [readDigits, digit_isDigit h, digit_toNat h]
  | case2 n h ih =>
    have hm : n % 10 < 10 := Nat.mod_lt _ (by decide)
    rw [decimal, if_neg h, readDigits_append, ih]
    simp only [Option.bind_some, readDigits, digit_isDigit hm, digit_toNat hm, if_true]
    congr 1
    omega

theorem decimal_ne_nil (n : Nat) : decimal n ≠ [] := by
  rw [decimal]
  split <;> simp

/-- A number is read back from its digits. -/
theorem readDecimal_decimal (n : Nat) : readDecimal (decimal n) = some n := by
  have : (decimal n).isEmpty = false := by
    cases h : decimal n with
    | nil => exact absurd h (decimal_ne_nil n)
    | cons => rfl
  simp [readDecimal, this, readDigits_decimal]


end ClassGraph
