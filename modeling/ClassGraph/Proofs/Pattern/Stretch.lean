/-
ClassGraph.Proofs.Pattern.Stretch — what a pattern matches.

A pattern stands for stretches of a text, and whether it does may depend on
the text before and after the stretch: `Stretch` says so by the form of the
pattern. The matcher knows places alone. A place leads to another where what
stands between them is a stretch of the pattern (`Leads`), and that relation
is had from the parts of a pattern as its stretches are. Repetition without a
bound is cut short by the matcher once it has been through as many rounds as
the text has places, and nothing is lost by that: a round that leads nowhere
can be left out (`Steps.shorten`). The main statements:

  * `testBit_ends` — the matcher finds the places to which a pattern leads;
  * `foundIn_iff`  — so a pattern is found where a stretch of it stands.
-/
import ClassGraph.Pattern.Match

namespace ClassGraph

/-! ## §1 Steps from place to place -/

/-- `n` steps in a row lead from one place to another. -/
def Steps (R : Nat → Nat → Prop) : Nat → Nat → Nat → Prop
  | 0, i, j => i = j
  | n + 1, i, j => ∃ k, R i k ∧ Steps R n k j

namespace Steps

variable {R : Nat → Nat → Prop} {n m i j : Nat}

theorem append : Steps R (n + m) i j ↔ ∃ k, Steps R n i k ∧ Steps R m k j := by
  induction n generalizing i with
  | zero => simp [Steps]
  | succ n ih =>
    rw [Nat.succ_add]
    simp only [Steps, ih]
    constructor
    · rintro ⟨l, hl, k, hk, hj⟩
      exact ⟨k, ⟨l, hl, hk⟩, hj⟩
    · rintro ⟨k, ⟨l, hl, hk⟩, hj⟩
      exact ⟨l, hl, k, hk, hj⟩

theorem snoc : Steps R (n + 1) i j ↔ ∃ k, Steps R n i k ∧ R k j := by
  rw [append]
  simp [Steps]

theorem le (hR : ∀ i j, R i j → i ≤ j) (h : Steps R n i j) : i ≤ j := by
  induction n generalizing i with
  | zero => exact Nat.le_of_eq h
  | succ n ih =>
    obtain ⟨k, hk, hrest⟩ := h
    exact Nat.le_trans (hR i k hk) (ih hrest)

/-- Steps that never lead back get along with as many as there are places in between. -/
theorem shorten (hR : ∀ i j, R i j → i ≤ j) (h : Steps R n i j) :
    ∃ m, m ≤ j - i ∧ Steps R m i j := by
  induction n generalizing i with
  | zero => exact ⟨0, Nat.zero_le _, h⟩
  | succ n ih =>
    obtain ⟨k, hk, hrest⟩ := h
    obtain ⟨m, hm, hsteps⟩ := ih hrest
    rcases Nat.lt_or_eq_of_le (hR i k hk) with hlt | rfl
    · have hkj := le hR hrest
      exact ⟨m + 1, by omega, k, hk, hsteps⟩
    · -- the first step leads nowhere
      exact ⟨m, hm, hsteps⟩

end Steps

namespace Pattern

variable {s u x w : Text} {p a b : Pattern} {set : CharSet} {condition : Look} {n m i j : Nat}

/-! ## §2 Stretches -/

/-- `n` stretches in a row, each of them with what stands before and after it. -/
def InRow (R : Text → Text → Text → Prop) : Nat → Text → Text → Text → Prop
  | 0, _, x, _ => x = []
  | n + 1, u, x, w => ∃ y z, x = y ++ z ∧ R u y (z ++ w) ∧ InRow R n (u ++ y) z w

/-- `x` is a stretch of a pattern between `u` and `w`. Bounds of a repetition that are out of order
stand for the lower one. -/
def Stretch : Pattern → Text → Text → Text → Prop
  | empty, _, x, _ => x = []
  | one set, _, x, _ => ∃ c, set.has c = true ∧ x = [c]
  | look condition, u, x, w => x = [] ∧ condition.holds u.getLast? w.head? = true
  | cat a b, u, x, w => ∃ y z, x = y ++ z ∧ a.Stretch u y (z ++ w) ∧ b.Stretch (u ++ y) z w
  | alt a b, u, x, w => a.Stretch u x w ∨ b.Stretch u x w
  | times p least most, u, x, w =>
    ∃ n, least ≤ n ∧ (∀ m ∈ most, n ≤ max least m) ∧ InRow p.Stretch n u x w

theorem stretch_cats_cons {p : Pattern} {l : List Pattern} : (cats (p :: l)).Stretch u x w ↔
    ∃ y z, x = y ++ z ∧ p.Stretch u y (z ++ w) ∧ (cats l).Stretch (u ++ y) z w := by
  cases l with
  | nil =>
    constructor
    · exact fun h => ⟨x, [], (List.append_nil x).symm, h, rfl⟩
    · rintro ⟨y, z, rfl, hy, rfl⟩
      rw [List.append_nil]
      exact hy
  | cons q l => exact Iff.rfl

/-- A stretch of patterns in turn is divided between any two of them. -/
theorem stretch_cats_append {l l' : List Pattern} : (cats (l ++ l')).Stretch u x w ↔
    ∃ y z, x = y ++ z ∧ (cats l).Stretch u y (z ++ w) ∧ (cats l').Stretch (u ++ y) z w := by
  induction l generalizing u x with
  | nil =>
    constructor
    · exact fun h => ⟨[], x, rfl, rfl, by rwa [List.append_nil]⟩
    · rintro ⟨y, z, rfl, rfl, hz⟩
      rwa [List.append_nil] at hz
  | cons p l ih =>
    rw [List.cons_append, stretch_cats_cons]
    simp only [ih, stretch_cats_cons]
    constructor
    · rintro ⟨y, _, rfl, hp, y', z, rfl, hl, hl'⟩
      rw [List.append_assoc] at hp hl'
      exact ⟨y ++ y', z, (List.append_assoc ..).symm, ⟨y, y', rfl, hp, hl⟩, hl'⟩
    · rintro ⟨_, z, rfl, ⟨y, y', rfl, hp, hl⟩, hl'⟩
      rw [← List.append_assoc] at hp hl'
      exact ⟨y, y' ++ z, List.append_assoc .., hp, y', z, rfl, hl, hl'⟩

/-- A row of characters of a set is a text of as many. -/
theorem inRow_one :
    InRow (one set).Stretch n u x w ↔ x.length = n ∧ ∀ c ∈ x, set.has c = true := by
  induction n generalizing u x with
  | zero =>
    rw [InRow, List.length_eq_zero_iff]
    constructor
    · rintro rfl
      exact ⟨rfl, fun _ hc => by cases hc⟩
    · exact And.left
  | succ n ih =>
    simp only [InRow, ih]
    constructor
    · rintro ⟨_, z, rfl, ⟨c, hc, rfl⟩, rfl, hz⟩
      exact ⟨by simp, List.forall_mem_cons.2 ⟨hc, hz⟩⟩
    · rintro ⟨hlength, hall⟩
      cases x with
      | nil => cases hlength
      | cons c z =>
        obtain ⟨hc, hz⟩ := List.forall_mem_cons.1 hall
        exact ⟨[c], z, rfl, ⟨c, hc, rfl⟩, Nat.succ.inj hlength, hz⟩

/-! ## §3 Places -/

/-- What stands between two places of a text. -/
def between (s : Text) (i j : Nat) : Text := (s.drop i).take (j - i)

/-- A stretch of the pattern stands between two places of a text. -/
def Leads (s : Text) (p : Pattern) (i j : Nat) : Prop :=
  i ≤ j ∧ j ≤ s.length ∧ p.Stretch (s.take i) (between s i j) (s.drop j)

theorem take_append_between (h : i ≤ j) : s.take i ++ between s i j = s.take j := by
  rw [between, ← List.take_add, Nat.add_sub_cancel' h]

theorem between_append_drop (h : i ≤ j) : between s i j ++ s.drop j = s.drop i := by
  have hdrop : s.drop j = (s.drop i).drop (j - i) := by rw [List.drop_drop, Nat.add_sub_cancel' h]
  rw [between, hdrop, List.take_append_drop]

theorem length_between (h : i ≤ j) (hj : j ≤ s.length) : (between s i j).length = j - i := by
  rw [between, List.length_take, List.length_drop]
  omega

theorem between_eq_nil (h : i ≤ j) (hj : j ≤ s.length) : between s i j = [] ↔ i = j := by
  rw [← List.length_eq_zero_iff, length_between h hj]
  omega

/-- What stands between two places is divided at a place in between. -/
theorem between_split (h : i ≤ j) (hj : j ≤ s.length) {P : Text → Text → Prop} :
    (∃ y z, between s i j = y ++ z ∧ P y z) ↔
      ∃ k, i ≤ k ∧ k ≤ j ∧ P (between s i k) (between s k j) := by
  constructor
  · rintro ⟨y, z, heq, hP⟩
    have hlength := congrArg List.length heq
    rw [length_between h hj, List.length_append] at hlength
    have hall : y ++ (z ++ s.drop j) = s.drop i := by
      rw [← List.append_assoc, ← heq, between_append_drop h]
    have hy : between s i (i + y.length) = y := by
      rw [between, ← hall, Nat.add_sub_cancel_left, List.take_left]
    have hz : between s (i + y.length) j = z := by
      have hdrop : s.drop (i + y.length) = z ++ s.drop j := by
        rw [← List.drop_drop, ← hall, List.drop_left]
      rw [between, hdrop]
      exact List.take_left' (by omega)
    exact ⟨i + y.length, by omega, by omega, by rw [hy, hz]; exact hP⟩
  · rintro ⟨k, hik, hkj, hP⟩
    refine ⟨_, _, ?_, hP⟩
    have hfront : between s i k ++ (between s k j ++ s.drop j) = between s i j ++ s.drop j := by
      rw [between_append_drop hkj, between_append_drop hik, between_append_drop h]
    rw [← List.append_assoc] at hfront
    exact (List.append_cancel_right hfront).symm

theorem Leads.le (h : Leads s p i j) : i ≤ j := h.1

theorem Leads.le_length (h : Leads s p i j) : j ≤ s.length := h.2.1

theorem leads_empty : Leads s empty i j ↔ i ≤ s.length ∧ i = j := by
  constructor
  · rintro ⟨h, hj, hnil⟩
    have heq := (between_eq_nil h hj).1 hnil
    exact ⟨heq ▸ hj, heq⟩
  · rintro ⟨hi, rfl⟩
    exact ⟨Nat.le_refl i, hi, (between_eq_nil (Nat.le_refl i) hi).2 rfl⟩

theorem leads_one : Leads s (one set) i j ↔ (s[i]?).any set.has = true ∧ j = i + 1 := by
  constructor
  · rintro ⟨h, hj, c, hc, hone⟩
    have hlength := length_between h hj
    rw [hone, List.length_singleton] at hlength
    have hnext : s.drop i = c :: s.drop j := by
      rw [← between_append_drop h, hone, List.singleton_append]
    have hget : s[i]? = some c := by
      rw [← Nat.add_zero i, ← List.getElem?_drop, hnext, List.getElem?_cons_zero]
    exact ⟨by simp [hget, hc], by omega⟩
  · rintro ⟨hany, rfl⟩
    obtain ⟨c, hget, hc⟩ := (Option.any_eq_true _ _).1 hany
    obtain ⟨hlt, rfl⟩ := List.getElem?_eq_some_iff.1 hget
    refine ⟨Nat.le_succ i, hlt, s[i], hc, ?_⟩
    rw [between, List.drop_eq_getElem_cons hlt, Nat.add_sub_cancel_left]
    rfl

theorem leads_look : Leads s (look condition) i j ↔
    (i ≤ s.length ∧ condition.holds (s.take i).getLast? (s.drop i).head? = true) ∧ i = j := by
  constructor
  · rintro ⟨h, hj, hnil, hholds⟩
    obtain rfl := (between_eq_nil h hj).1 hnil
    exact ⟨⟨hj, hholds⟩, rfl⟩
  · rintro ⟨⟨hi, hholds⟩, rfl⟩
    exact ⟨Nat.le_refl i, hi, (between_eq_nil (Nat.le_refl i) hi).2 rfl, hholds⟩

theorem leads_cat : Leads s (cat a b) i j ↔ ∃ k, Leads s a i k ∧ Leads s b k j := by
  constructor
  · rintro ⟨h, hj, hparts⟩
    obtain ⟨k, hik, hkj, ha, hb⟩ := (between_split h hj).1 hparts
    rw [between_append_drop hkj] at ha
    rw [take_append_between hik] at hb
    exact ⟨k, ⟨hik, Nat.le_trans hkj hj, ha⟩, ⟨hkj, hj, hb⟩⟩
  · rintro ⟨k, ⟨hik, hk, ha⟩, ⟨hkj, hj, hb⟩⟩
    rw [← between_append_drop hkj] at ha
    rw [← take_append_between hik] at hb
    exact ⟨Nat.le_trans hik hkj, hj,
      (between_split (Nat.le_trans hik hkj) hj).2 ⟨k, hik, hkj, ha, hb⟩⟩

theorem leads_alt : Leads s (alt a b) i j ↔ Leads s a i j ∨ Leads s b i j := by
  rw [Leads, Leads, Leads, ← and_or_left, ← and_or_left]
  rfl

/-- Stretches in a row stand between two places where steps in a row lead from one to the other. -/
theorem inRow_between (h : i ≤ j) (hj : j ≤ s.length) :
    InRow p.Stretch n (s.take i) (between s i j) (s.drop j) ↔ Steps (Leads s p) n i j := by
  induction n generalizing i with
  | zero => exact between_eq_nil h hj
  | succ n ih =>
    rw [InRow, between_split h hj, Steps]
    constructor
    · rintro ⟨k, hik, hkj, hfirst, hrest⟩
      rw [between_append_drop hkj] at hfirst
      rw [take_append_between hik] at hrest
      exact ⟨k, ⟨hik, Nat.le_trans hkj hj, hfirst⟩, (ih hkj).1 hrest⟩
    · rintro ⟨k, ⟨hik, hk, hfirst⟩, hrest⟩
      have hkj := Steps.le (fun _ _ => Leads.le) hrest
      rw [← between_append_drop hkj] at hfirst
      refine ⟨k, hik, hkj, hfirst, ?_⟩
      rw [take_append_between hik]
      exact (ih hkj).2 hrest

theorem leads_times {least : Nat} {most : Option Nat} (hi : i ≤ s.length) :
    Leads s (times p least most) i j ↔
      ∃ n, least ≤ n ∧ (∀ m ∈ most, n ≤ max least m) ∧ Steps (Leads s p) n i j := by
  constructor
  · rintro ⟨h, hj, n, hleast, hmost, hrow⟩
    exact ⟨n, hleast, hmost, (inRow_between h hj).1 hrow⟩
  · rintro ⟨n, hleast, hmost, hsteps⟩
    have h := Steps.le (fun _ _ => Leads.le) hsteps
    have hj : j ≤ s.length := by
      cases n with
      | zero => exact (show i = j from hsteps) ▸ hi
      | succ n =>
        obtain ⟨k, -, hlast⟩ := Steps.snoc.1 hsteps
        exact hlast.le_length
    exact ⟨h, hj, n, hleast, hmost, (inRow_between h hj).2 hsteps⟩

/-! ## §4 Sets of places -/

theorem testBit_digit_zero (d : Bool) (m : Nat) :
    ((if d then 1 else 0) + 2 * m).testBit 0 = d := by
  rw [Nat.testBit_zero]
  cases d <;> simp

theorem testBit_digit_succ (d : Bool) (m i : Nat) :
    ((if d then 1 else 0) + 2 * m).testBit (i + 1) = m.testBit i := by
  have hhalf : ((if d then 1 else 0) + 2 * m) / 2 = m := by
    cases d <;> simp only [Bool.false_eq_true, if_false, if_true] <;> omega
  rw [Nat.testBit_add_one, hhalf]

theorem testBit_placesOf (f : Char → Bool) (s : Text) (i : Nat) :
    (placesOf f s).testBit i = (s[i]?).any f := by
  induction s generalizing i with
  | nil => simp [placesOf]
  | cons c s ih =>
    cases i with
    | zero => rw [placesOf, testBit_digit_zero, List.getElem?_cons_zero, Option.any_some]
    | succ i => rw [placesOf, testBit_digit_succ, ih, List.getElem?_cons_succ]

theorem testBit_looking (condition : Look) (u s : Text) (i : Nat) :
    (looking condition u.getLast? s).testBit i = true ↔
      i ≤ s.length ∧ condition.holds (u ++ s.take i).getLast? (s.drop i).head? = true := by
  induction s generalizing u i with
  | nil =>
    have hdigit := testBit_digit_zero (condition.holds u.getLast? none) 0
    have hdigits := fun i => testBit_digit_succ (condition.holds u.getLast? none) 0 i
    rw [Nat.mul_zero, Nat.add_zero] at hdigit
    simp only [Nat.mul_zero, Nat.add_zero] at hdigits
    cases i with
    | zero => simp [looking, hdigit]
    | succ i => simp [looking, hdigits]
  | cons c s ih =>
    cases i with
    | zero =>
      rw [looking, testBit_digit_zero]
      simp
    | succ i =>
      have hlast : some c = (u ++ [c]).getLast? := by simp
      rw [looking, testBit_digit_succ, hlast, ih]
      simp

/-- A set of places of a text holds no place beyond its end. -/
def Inside (s : Text) (m : Places) : Prop := ∀ i, m.testBit i = true → i ≤ s.length

/-- `f` carries sets of places along a relation. -/
def Carries (s : Text) (f : Places → Places) (R : Nat → Nat → Prop) : Prop :=
  ∀ m, Inside s m → ∀ j, (f m).testBit j = true ↔ ∃ i, m.testBit i = true ∧ R i j

variable {f : Places → Places} {R : Nat → Nat → Prop} {m : Places}

theorem Carries.inside (hf : Carries s f R) (hR : ∀ i j, R i j → j ≤ s.length) (hm : Inside s m) :
    Inside s (f m) := by
  intro j hj
  obtain ⟨i, -, hi⟩ := (hf m hm j).1 hj
  exact hR i j hi

theorem inside_repeat (hf : Carries s f R) (hR : ∀ i j, R i j → j ≤ s.length) (hm : Inside s m)
    (n : Nat) : Inside s (Nat.repeat f n m) := by
  induction n with
  | zero => exact hm
  | succ n ih => exact hf.inside hR ih

/-- Repetition carries sets of places along steps in a row. -/
theorem Carries.repeat (hf : Carries s f R) (hR : ∀ i j, R i j → j ≤ s.length) (n : Nat) :
    Carries s (Nat.repeat f n) (Steps R n) := by
  intro m hm j
  induction n generalizing j with
  | zero => simp [Nat.repeat, Steps]
  | succ n ih =>
    rw [Nat.repeat, hf _ (inside_repeat hf hR hm n)]
    simp only [ih, Steps.snoc]
    constructor
    · rintro ⟨k, ⟨i, hi, hk⟩, hj⟩
      exact ⟨i, hi, k, hk, hj⟩
    · rintro ⟨i, hi, k, hk, hj⟩
      exact ⟨k, ⟨i, hi, hk⟩, hj⟩

/-- Where the places already reached are kept, rounds gather what any lower number of steps leads
to. -/
theorem testBit_gather (hf : Carries s f R) (hR : ∀ i j, R i j → j ≤ s.length) (hm : Inside s m)
    (n j : Nat) : (Nat.repeat (fun m' => m ||| f m') n m).testBit j = true ↔
      ∃ i, m.testBit i = true ∧ ∃ k, k ≤ n ∧ Steps R k i j := by
  induction n generalizing j with
  | zero =>
    simp only [Nat.repeat, Nat.le_zero]
    constructor
    · exact fun hj => ⟨j, hj, 0, rfl, rfl⟩
    · rintro ⟨i, hi, k, rfl, hsteps⟩
      exact (show i = j from hsteps) ▸ hi
  | succ n ih =>
    have hinside : Inside s (Nat.repeat (fun m' => m ||| f m') n m) := by
      intro j hj
      obtain ⟨i, hi, k, -, hsteps⟩ := (ih j).1 hj
      cases k with
      | zero => exact (show i = j from hsteps) ▸ hm i hi
      | succ k =>
        obtain ⟨l, -, hlast⟩ := Steps.snoc.1 hsteps
        exact hR l j hlast
    rw [Nat.repeat, Nat.testBit_or, Bool.or_eq_true, hf _ hinside]
    simp only [ih]
    constructor
    · rintro (hj | ⟨l, ⟨i, hi, k, hk, hsteps⟩, hlast⟩)
      · exact ⟨j, hj, 0, Nat.zero_le _, rfl⟩
      · exact ⟨i, hi, k + 1, Nat.succ_le_succ hk, Steps.snoc.2 ⟨l, hsteps, hlast⟩⟩
    · rintro ⟨i, hi, k, hk, hsteps⟩
      cases k with
      | zero => exact .inl ((show i = j from hsteps) ▸ hi)
      | succ k =>
        obtain ⟨l, hfront, hlast⟩ := Steps.snoc.1 hsteps
        exact .inr ⟨l, ⟨i, hi, k, Nat.le_of_succ_le_succ hk, hfront⟩, hlast⟩

/-! ## §5 The matcher -/

/-- The rounds that the matcher makes beyond the least number are enough for any that the bounds
allow. -/
theorem exists_rounds (hR : ∀ i j, R i j → i ≤ j ∧ j ≤ s.length) {least : Nat} {most : Option Nat} :
    (∃ n, least ≤ n ∧ (∀ m ∈ most, n ≤ max least m) ∧ Steps R n i j) ↔
      ∃ l, Steps R least i l ∧
        ∃ k, k ≤ most.elim (s.length + 1) (· - least) ∧ Steps R k l j := by
  constructor
  · rintro ⟨n, hleast, hmost, hsteps⟩
    obtain ⟨k, rfl⟩ := Nat.exists_eq_add_of_le hleast
    obtain ⟨l, hfront, hback⟩ := Steps.append.1 hsteps
    refine ⟨l, hfront, ?_⟩
    cases most with
    | none =>
      -- the rounds beyond the least number may be fewer, but lead as far
      obtain ⟨k', hk', hshort⟩ := Steps.shorten (fun i j h => (hR i j h).1) hback
      have hj : j ≤ l ∨ j ≤ s.length := by
        cases k with
        | zero => exact .inl (Nat.le_of_eq (show l = j from hback).symm)
        | succ k =>
          obtain ⟨_, -, hlast⟩ := Steps.snoc.1 hback
          exact .inr (hR _ j hlast).2
      refine ⟨k', ?_, hshort⟩
      simp only [Option.elim_none]
      omega
    | some most =>
      have hbound := hmost most rfl
      refine ⟨k, ?_, hback⟩
      simp only [Option.elim_some]
      omega
  · rintro ⟨l, hfront, k, hk, hback⟩
    refine ⟨least + k, Nat.le_add_right _ _, fun m hm => ?_, Steps.append.2 ⟨l, hfront, hback⟩⟩
    obtain rfl := Option.mem_def.1 hm
    simp only [Option.elim_some] at hk
    omega

/-- **The matcher finds the places to which a pattern leads** from those of a set. -/
theorem testBit_ends (s : Text) (p : Pattern) : Carries s (ends s p) (Leads s p) := by
  intro m hm j
  induction p generalizing m j with
  | empty =>
    simp only [ends, leads_empty]
    constructor
    · exact fun hj => ⟨j, hj, hm j hj, rfl⟩
    · rintro ⟨i, hi, -, rfl⟩
      exact hi
  | one set =>
    simp only [ends, leads_one]
    constructor
    · intro hj
      cases j with
      | zero => simp at hj
      | succ i =>
        rw [Nat.testBit_add_one, Nat.mul_div_cancel_left _ (by decide), Nat.testBit_and,
          Bool.and_eq_true, testBit_placesOf] at hj
        exact ⟨i, hj.1, hj.2, rfl⟩
    · rintro ⟨i, hi, hset, rfl⟩
      rw [Nat.testBit_add_one, Nat.mul_div_cancel_left _ (by decide), Nat.testBit_and,
        Bool.and_eq_true, testBit_placesOf]
      exact ⟨hi, hset⟩
  | look condition =>
    have hlooking := testBit_looking condition [] s j
    simp only [List.getLast?_nil, List.nil_append] at hlooking
    simp only [ends, Nat.testBit_and, Bool.and_eq_true, hlooking, leads_look]
    constructor
    · rintro ⟨hj, hplace⟩
      exact ⟨j, hj, hplace, rfl⟩
    · rintro ⟨i, hi, hplace, rfl⟩
      exact ⟨hi, hplace⟩
  | cat a b iha ihb =>
    have hmiddle : Inside s (ends s a m) := fun k hk => by
      obtain ⟨i, -, hlead⟩ := (iha m hm k).1 hk
      exact hlead.le_length
    simp only [ends, ihb _ hmiddle, iha m hm, leads_cat]
    constructor
    · rintro ⟨k, ⟨i, hi, ha⟩, hb⟩
      exact ⟨i, hi, k, ha, hb⟩
    · rintro ⟨i, hi, k, ha, hb⟩
      exact ⟨k, ⟨i, hi, ha⟩, hb⟩
  | alt a b iha ihb =>
    simp only [ends, Nat.testBit_or, Bool.or_eq_true, iha m hm, ihb m hm, leads_alt, and_or_left,
      exists_or]
  | times p least most ih =>
    have hcarries : Carries s (ends s p) (Leads s p) := ih
    have hR : ∀ i j, Leads s p i j → j ≤ s.length := fun _ _ => Leads.le_length
    have hreached := inside_repeat hcarries hR hm least
    have hfirst := hcarries.repeat hR least m hm
    simp only [ends, settle_eq, testBit_gather hcarries hR hreached, hfirst]
    have hrounds : ∀ i, m.testBit i = true → (Leads s (times p least most) i j ↔ _) := fun i hi =>
      (leads_times (hm i hi)).trans
        (exists_rounds (s := s) fun _ _ h => ⟨h.le, h.le_length⟩)
    constructor
    · rintro ⟨l, ⟨i, hi, hfront⟩, hback⟩
      exact ⟨i, hi, (hrounds i hi).2 ⟨l, hfront, hback⟩⟩
    · rintro ⟨i, hi, hlead⟩
      obtain ⟨l, hfront, hback⟩ := (hrounds i hi).1 hlead
      exact ⟨l, ⟨i, hi, hfront⟩, hback⟩

theorem testBit_everywhere (s : Text) (i : Nat) :
    (everywhere s).testBit i = true ↔ i ≤ s.length := by
  rw [everywhere, Nat.one_shiftLeft, Nat.testBit_two_pow_sub_one, decide_eq_true_eq,
    Nat.lt_succ_iff]

/-- **A pattern is found in a text** where a stretch of it stands there. -/
theorem foundIn_iff : p.foundIn s = true ↔ ∃ u x w, s = u ++ (x ++ w) ∧ p.Stretch u x w := by
  have hends := testBit_ends s p (everywhere s) fun i hi => (testBit_everywhere s i).1 hi
  rw [foundIn, bne_iff_ne]
  constructor
  · intro hne
    obtain ⟨j, hj⟩ := Nat.exists_testBit_of_ne_zero hne
    obtain ⟨i, -, hij, hjs, hstretch⟩ := (hends j).1 hj
    refine ⟨_, _, _, ?_, hstretch⟩
    rw [between_append_drop hij, List.take_append_drop]
  · rintro ⟨u, x, w, rfl, hstretch⟩ hzero
    have hlead : Leads (u ++ (x ++ w)) p u.length (u.length + x.length) := by
      refine ⟨by omega, by simp, ?_⟩
      have hx : between (u ++ (x ++ w)) u.length (u.length + x.length) = x := by
        rw [between, List.drop_left, Nat.add_sub_cancel_left, List.take_left]
      have hw : (u ++ (x ++ w)).drop (u.length + x.length) = w := by
        rw [← List.drop_drop, List.drop_left, List.drop_left]
      rw [hx, hw, List.take_left]
      exact hstretch
    have hbit := (hends _).2 ⟨u.length, (testBit_everywhere _ _).2 (by simp), hlead⟩
    rw [hzero, Nat.zero_testBit] at hbit
    cases hbit

end Pattern

end ClassGraph
