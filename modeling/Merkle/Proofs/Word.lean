import Merkle.Proofs.Tree.Capacity
import Merkle.Word

/-! The powers of two among words, counted by the zeros in front of their digits and behind them. -/

namespace Merkle.Word

/-- A word that is not zero lies between the powers that the zeros in front of it name. -/
theorem leadingZeros_bounds {word : UInt64} (some : 0 < word.toNat) :
    leadingZeros word < 64 ∧ levelWidth (63 - leadingZeros word) ≤ word.toNat ∧
      word.toNat < levelWidth (64 - leadingZeros word) := by
  -- The first one has as many digits behind it as the zeros leave.
  have other : word.toBitVec ≠ 0 := by
    intro zero
    rw [← UInt64.toNat_toBitVec, zero] at some
    cases some
  have zeros := BitVec.clz_lt_iff_ne_zero.mpr other
  have lower := BitVec.two_pow_sub_clz_le_toNat_of_ne_zero (by omega) other
  have upper := @BitVec.toNat_lt_two_pow_sub_clz _ word.toBitVec
  rw [levelWidth, levelWidth, Nat.one_shiftLeft, Nat.one_shiftLeft]
  exact ⟨BitVec.lt_def.mp zeros, lower, upper⟩

/-- A power of two has as many zeros behind its last one as its exponent says. -/
theorem trailingZeros_eq {word : UInt64} {depth : Nat} (power : word.toNat = levelWidth depth) :
    trailingZeros word = depth := by
  have other : word.toBitVec ≠ 0 := by
    intro zero
    rw [← UInt64.toNat_toBitVec, zero] at power
    exact Nat.ne_of_lt (levelWidth_pos depth) power
  -- The digit in front of those zeros is a one, and a power of two has no other.
  have digit := BitVec.getLsbD_true_ctz_of_ne_zero other
  rw [BitVec.getLsbD, UInt64.toNat_toBitVec, power, levelWidth, Nat.one_shiftLeft,
    Nat.testBit_two_pow, decide_eq_true_eq] at digit
  exact digit.symm

/-- The ones below the least power of two are one less than the power. -/
theorem toNat_onesBelowPower (word : UInt64) :
    (onesBelowPower word).toNat + 1 = leastCapacity word.toNat := by
  unfold onesBelowPower
  split
  · -- Zero and one lie below the first power, or are it.
    rename_i small
    have one : word.toNat ≤ 1 := UInt64.le_iff_toNat_le.mp small
    rw [leastCapacity, ceilLog2, if_pos one]
    rfl
  · rename_i large
    rw [UInt64.le_iff_toNat_le] at large
    have more : 1 < word.toNat := Nat.lt_of_not_le large
    have before : (word - 1).toNat = word.toNat - 1 := by
      have least : 1 ≤ word := UInt64.le_iff_toNat_le.mpr (Nat.le_of_lt more)
      exact UInt64.toNat_sub_of_le _ _ least
    obtain ⟨short, lower, upper⟩ := @leadingZeros_bounds (word - 1) (by omega)
    rw [before] at lower upper
    -- The zeros in front of the predecessor are the ones that are dropped from a whole word.
    generalize leadingZeros (word - 1) = zeros at *
    have amount : (UInt64.ofNat zeros).toNat % 64 = zeros := by
      rw [UInt64.toNat_ofNat_of_lt' (Nat.lt_trans short (by decide)), Nat.mod_eq_of_lt short]
    have whole : UInt64.size = levelWidth (64 - zeros + zeros) := by
      rw [Nat.sub_add_cancel (Nat.le_of_lt short)]
      rfl
    have next : 64 - zeros = 63 - zeros + 1 := by omega
    have positive := levelWidth_pos (64 - zeros)
    rw [UInt64.toNat_shiftRight, amount, UInt64.toNat_ofNat_of_lt' (by decide), whole,
      pred_levelWidth_shiftRight, Nat.sub_add_cancel positive, next]
    -- The word lies between two neighbouring powers, so the upper one is the least.
    exact (leastCapacity_of_between (by omega) (by rw [← next]; omega)).symm

/-- The least power of two that is not below a word is a word itself, or is not computed. -/
theorem nextPowerOfTwo?_eq (word : UInt64) :
    nextPowerOfTwo? word = (word? (leastCapacity word.toNat)).map UInt64.ofNat := by
  -- One more than the row of ones is the capacity, which is then tested.
  rw [nextPowerOfTwo?, add?, ← toNat_onesBelowPower]
  rfl

/-- A power of two and its double are words exactly below the greatest depth. -/
theorem isSome_mul?_two_iff {word : UInt64} {depth : Nat} (power : word.toNat = levelWidth depth) :
    (mul? word 2).isSome ↔ depth < maxDepth := by
  -- The double is the number of all slots, whose bound is known.
  have double : word.toNat * (2 : UInt64).toNat = 2 * levelWidth depth := by
    rw [power, Nat.mul_comm]
    rfl
  rw [mul?, double, Option.isSome_map, word?, ← twice_levelWidth_lt_iff]
  split <;> simp_all

end Merkle.Word
