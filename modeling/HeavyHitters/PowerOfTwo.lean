/-!
# Powers of two

Table lengths and field widths are powers of two, and are kept as binary logarithms. This module
goes from the logarithm to the power; the way back is the logarithm of natural numbers.
-/

namespace HeavyHitters

/-- The power of two whose binary logarithm is `lg`. -/
def powerOfTwo (lg : Nat) : Nat := Nat.pow 2 lg

theorem powerOfTwo_pos (lg : Nat) : 0 < powerOfTwo lg := Nat.two_pow_pos lg

theorem powerOfTwo_add (a b : Nat) : powerOfTwo (a + b) = powerOfTwo a * powerOfTwo b :=
  Nat.pow_add 2 a b

theorem powerOfTwo_succ (lg : Nat) : powerOfTwo (lg + 1) = 2 * powerOfTwo lg := by
  rw [Nat.add_comm, powerOfTwo_add]
  rfl

theorem powerOfTwo_mono {a b : Nat} (h : a ≤ b) : powerOfTwo a ≤ powerOfTwo b :=
  Nat.pow_le_pow_right (by decide) h

@[simp] theorem log2_powerOfTwo (lg : Nat) : (powerOfTwo lg).log2 = lg := Nat.log2_two_pow

end HeavyHitters
