import Mathlib.Algebra.GroupWithZero.Nat
import Mathlib.Algebra.Group.Int.Defs
import Mathlib.Order.Lattice

/-! Signed 64-bit durations in nanoseconds as Go computes with them: arithmetic wraps around, the
difference of two times is cut off at the largest and the smallest duration. -/

namespace Lib

def wrap64 (n : ℤ) : ℤ := n.bmod (2 ^ 64)

def seconds (n : ℤ) : ℤ := wrap64 (n * 1000000000)

def timeSub (t u : ℤ) : ℤ := max (-2 ^ 63) (min (2 ^ 63 - 1) (t - u))

end Lib
