/-!
# Indices and lengths

Rows, slots and variables are counted by natural numbers, and the formulas for them are those of the
natural numbers. What is counted lies in memory, though: **an index is a word of 64 bits, and what
does not fit into a word is no index**. A buffer of numbers is shorter still, since each number
takes eight bytes and no buffer more than half of the addresses. Whoever takes a count from outside
asks here whether it can be one.
-/

namespace WeakForm

/-- A number as an index. -/
def asIndex? (n : Nat) : Option Nat := if n < UInt64.size then some n else none

/-- Whether there can be a buffer of that many numbers. -/
def fitsBuffer (n : Nat) : Bool := 16 * n < UInt64.size

theorem asIndex?_of_fitsBuffer {n : Nat} (h : fitsBuffer n = true) : asIndex? n = some n := by
  simp only [fitsBuffer, decide_eq_true_eq] at h
  exact if_pos (by omega)

end WeakForm
