/-
ClassGraph.Proofs.Text.Decodable — written forms that can be told apart.

A text is written by writing its parts one after another, and whoever reads
it has to find out where a part ends. `Decodable write After` says that this
can be done: of two texts that begin with something written by `write` and go
on as `After` allows, equal ones begin with the same thing and go on alike.
What follows matters, because a number goes on for as long as there are
digits. The lemmas are one for each way in which forms are put together: a
fixed text before or after a form (`prepend`, `append`), two forms in a row
(`pair`), many (`flatMap`), many with a separator between them (`join`), and
two forms that are tried on: decimal numbers and text between quotes.
-/
import ClassGraph.Text.Basic

namespace ClassGraph

/-- What `write` writes can be told from the text, and so can where it ends, if what follows is as
`After` says. -/
def Decodable {α : Type} (write : α → Text) (After : Text → Prop) : Prop :=
  ∀ a b x y, After x → After y → write a ++ x = write b ++ y → a = b ∧ x = y

/-- What follows may be any text. -/
def Anything (_ : Text) : Prop := True

/-- A text does not begin with anything that `write` writes. -/
def NoneFirst {α : Type} (write : α → Text) (x : Text) : Prop := ∀ a y, x ≠ write a ++ y

namespace Decodable

variable {α β : Type} {write : α → Text} {write' : β → Text} {After Later : Text → Prop}

/-! ## §1 One form -/

/-- A form that a reader can take off the front of a text is decodable. -/
theorem of_reader (read : Text → Option (α × Text))
    (h : ∀ a x, After x → read (write a ++ x) = some (a, x)) : Decodable write After := by
  intro a b x y hx hy he
  have ha := h a x hx
  rw [he, h b y hy] at ha
  simpa [eq_comm] using ha

theorem mono (h : Decodable write After) (hlater : ∀ x, Later x → After x) :
    Decodable write Later := by
  intro a b x y hx hy he
  exact h a b x y (hlater x hx) (hlater y hy) he

/-- A form of what can be had back from `f` of it. -/
theorem comp (h : Decodable write After) {f : β → α} (hf : ∀ b b', f b = f b' → b = b') :
    Decodable (fun b => write (f b)) After := by
  intro b b' x y hx hy he
  obtain ⟨hb, hrest⟩ := h _ _ x y hx hy he
  exact ⟨hf b b' hb, hrest⟩

theorem prepend (h : Decodable write After) (lead : Text) :
    Decodable (fun a => lead ++ write a) After := by
  intro a b x y hx hy he
  rw [List.append_assoc, List.append_assoc] at he
  exact h a b x y hx hy (List.append_cancel_left he)

theorem append (h : Decodable write After) (tail : Text) (htail : ∀ x, After (tail ++ x)) :
    Decodable (fun a => write a ++ tail) Anything := by
  intro a b x y _ _ he
  rw [List.append_assoc, List.append_assoc] at he
  obtain ⟨hab, hrest⟩ := h a b _ _ (htail x) (htail y) he
  exact ⟨hab, List.append_cancel_left hrest⟩

/-! ## §2 Forms in a row -/

theorem pair (h : Decodable write After) (h' : Decodable write' Later)
    (hnext : ∀ b x, Later x → After (write' b ++ x)) :
    Decodable (fun p : α × β => write p.1 ++ write' p.2) Later := by
  intro p q x y hx hy he
  rw [List.append_assoc, List.append_assoc] at he
  obtain ⟨hfirst, hrest⟩ := h p.1 q.1 _ _ (hnext p.2 x hx) (hnext q.2 y hy) he
  obtain ⟨hsecond, hxy⟩ := h' p.2 q.2 x y hx hy hrest
  exact ⟨Prod.ext hfirst hsecond, hxy⟩

/-- What follows a form is what may follow one, be it another form or the end of the row. -/
theorem after_flatMap (hnext : ∀ a x, After (write a ++ x)) {x : Text} (hx : After x)
    (as : List α) : After (as.flatMap write ++ x) := by
  cases as with
  | nil => exact hx
  | cons a as =>
    rw [List.flatMap_cons, List.append_assoc]
    exact hnext a _

/-- Many forms in a row, if what follows the last of them does not begin with one more. -/
theorem flatMap (h : Decodable write After) (hnext : ∀ a x, After (write a ++ x))
    (hlater : ∀ x, Later x → After x ∧ NoneFirst write x) :
    Decodable (fun as : List α => as.flatMap write) Later := by
  intro as bs x y hx hy he
  obtain ⟨hax, hnx⟩ := hlater x hx
  obtain ⟨hay, hny⟩ := hlater y hy
  induction as generalizing bs with
  | nil =>
    cases bs with
    | nil => exact ⟨rfl, he⟩
    | cons b bs =>
      simp only [List.flatMap_cons, List.append_assoc] at he
      exact absurd he (hnx b _)
  | cons a as ih =>
    cases bs with
    | nil =>
      simp only [List.flatMap_cons, List.append_assoc] at he
      exact absurd he.symm (hny a _)
    | cons b bs =>
      simp only [List.flatMap_cons, List.append_assoc] at he
      obtain ⟨rfl, hrest⟩ := h a b _ _ (after_flatMap hnext hax as) (after_flatMap hnext hay bs) he
      obtain ⟨rfl, hxy⟩ := ih bs hrest
      exact ⟨rfl, hxy⟩

theorem join_map_cons (sep : Text) (write : α → Text) (a : α) (as : List α) :
    ClassGraph.join sep ((a :: as).map write) = write a ++ as.flatMap fun a' => sep ++ write a' := by
  induction as generalizing a with
  | nil => simp
  | cons a' as ih =>
    have hrest := ih a'
    rw [List.map_cons] at hrest
    rw [List.map_cons, List.map_cons, join_cons (by simp), hrest, List.flatMap_cons]
    simp only [List.append_assoc]

/-- One form or more with a separator between them, if what follows the last of them does not begin
with the separator. -/
theorem join (h : Decodable write After) {sep : Text} (hsep : ∀ x, After (sep ++ x))
    (hlater : ∀ x, Later x → After x ∧ ∀ y, x ≠ sep ++ y) :
    Decodable (fun p : α × List α => ClassGraph.join sep ((p.1 :: p.2).map write)) Later := by
  have hnext : ∀ a x, After ((sep ++ write a) ++ x) := by
    intro a x
    rw [List.append_assoc]
    exact hsep _
  have hrow : Decodable (fun as : List α => as.flatMap fun a => sep ++ write a) Later := by
    refine (h.prepend sep).flatMap hnext fun x hx => ⟨(hlater x hx).1, fun a y => ?_⟩
    rw [List.append_assoc]
    exact (hlater x hx).2 _
  have hpair := h.pair hrow fun as x hx => after_flatMap hnext (hlater x hx).1 as
  simpa only [join_map_cons] using hpair

/-! ## §3 Numbers -/

/-- A text does not begin with a digit. -/
def NoDigitFirst (x : Text) : Prop := ∀ c ∈ x.head?, c.isDigit = false

theorem noDigitFirst_cons {c : Char} (h : c.isDigit = false) (x : Text) :
    NoDigitFirst (c :: x) := by
  intro c' hc
  cases hc
  exact h

theorem isDigit_of_mem_decimal (n : Nat) : ∀ c ∈ ClassGraph.decimal n, c.isDigit = true := by
  induction n using ClassGraph.decimal.induct with
  | case1 n h =>
    rw [ClassGraph.decimal, if_pos h]
    simpa using digit_isDigit h
  | case2 n h ih =>
    rw [ClassGraph.decimal, if_neg h]
    intro c hc
    rcases List.mem_append.1 hc with hc | hc
    · exact ih c hc
    · rw [List.mem_singleton.1 hc]
      exact digit_isDigit (Nat.mod_lt _ (by decide))

/-- A number ends where its digits do. -/
theorem decimal : Decodable ClassGraph.decimal NoDigitFirst := by
  refine of_reader (fun s => (readDecimal (s.takeWhile Char.isDigit)).map fun n =>
    (n, s.dropWhile Char.isDigit)) fun n x hx => ?_
  have hrest : x.takeWhile Char.isDigit = [] ∧ x.dropWhile Char.isDigit = x := by
    cases x with
    | nil => exact ⟨rfl, rfl⟩
    | cons c x =>
      have hc := hx c rfl
      simp [hc]
  simp only [List.takeWhile_append_of_pos (isDigit_of_mem_decimal n),
    List.dropWhile_append_of_pos (isDigit_of_mem_decimal n), hrest.1, hrest.2, List.append_nil,
    readDecimal_decimal, Option.map_some]

/-! ## §4 Text between quotes -/

/-- Text between quotes, if a reader takes the characters off one by one and a quote inside does not
begin with a quote. -/
theorem quoted {escape : Char → Text} (read : Text → Option (Char × Text))
    (hread : ∀ c x, read (escape c ++ x) = some (c, x))
    (hquote : ∀ x, read ('"' :: x) = some ('"', x)) (hinside : ∀ x y, '"' :: x ≠ escape '"' ++ y) :
    Decodable (fun s : Text => '"' :: s.flatMap escape ++ ['"']) Anything := by
  have hnone : ∀ x, NoneFirst escape ('"' :: x) := by
    intro x c y he
    have hfirst := hread c y
    rw [← he, hquote] at hfirst
    obtain ⟨rfl, -⟩ := Prod.mk.inj (Option.some.inj hfirst)
    exact hinside x y he
  have hescape : Decodable escape Anything := of_reader read fun c x _ => hread c x
  have hrow : Decodable (fun s : Text => s.flatMap escape) fun x => ∃ y, x = '"' :: y := by
    refine hescape.flatMap (fun _ _ => trivial) fun x hx => ⟨trivial, ?_⟩
    obtain ⟨y, rfl⟩ := hx
    exact hnone y
  exact (hrow.append ['"'] fun x => ⟨x, rfl⟩).prepend ['"']

end Decodable

end ClassGraph
