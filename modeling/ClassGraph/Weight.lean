/-
ClassGraph.Weight — how often one class refers to another.

A weight is a 32-bit number. Weights that come from several files are added
with `plus`, which stays at the greatest weight rather than wrap around:
`toNat_plus` says so in plain numbers.
-/

namespace ClassGraph

/-- The number of lines in which a reference was counted. -/
abbrev Weight := UInt32

namespace Weight

def greatest : Weight := 0xFFFFFFFF

/-- The sum of two weights, or the greatest weight where the sum exceeds it. -/
def plus (a b : Weight) : Weight :=
  if a.toNat + b.toNat ≤ greatest.toNat then a + b else greatest

theorem toNat_greatest : greatest.toNat = UInt32.size - 1 := by decide

theorem toNat_plus (a b : Weight) :
    (plus a b).toNat = min (a.toNat + b.toNat) (UInt32.size - 1) := by
  unfold plus
  rw [toNat_greatest]
  split
  · next h =>
    simp only [UInt32.size] at h ⊢
    rw [UInt32.toNat_add, Nat.mod_eq_of_lt (by omega)]
    omega
  · next h =>
    rw [toNat_greatest]
    omega

end Weight

end ClassGraph
