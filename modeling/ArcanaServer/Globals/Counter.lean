import Mathlib.Algebra.Group.Nat.Defs

namespace ArcanaServer

def u64Max : Nat := 2 ^ 64 - 1

/-- `next_count` of the globals: the counter after it, which it returns. -/
def nextCounter (counter : Nat) : Nat :=
  if counter + 1 ≤ u64Max then counter + 1 else counter

theorem nextCounter_of_lt {counter : Nat} (fits : counter < u64Max) :
    nextCounter counter = counter + 1 :=
  if_pos fits

theorem le_nextCounter (counter : Nat) : counter ≤ nextCounter counter := by
  unfold nextCounter
  split
  · exact Nat.le_succ _
  · exact Nat.le_refl _

end ArcanaServer
