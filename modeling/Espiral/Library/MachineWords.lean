import Mathlib.Data.Nat.Bitwise
import Mathlib.Tactic.Linarith

/-!
# Unsigned machine arithmetic on naturals

A `w`-bit unsigned value is a natural below `2 ^ w`. The wrapping operations
reduce modulo `2 ^ w` exactly where the hardware does, so a proof that nothing
wraps is one side condition and everything after it is linear arithmetic.
-/

namespace MachineWords

set_option autoImplicit false

def wrap32 (value : Nat) : Nat := value % 2 ^ 32

def wrap64 (value : Nat) : Nat := value % 2 ^ 64

def add64 (left right : Nat) : Nat := wrap64 (left + right)

/-- Two's complement subtraction: the borrow comes from `2 ^ 64`. -/
def sub64 (left right : Nat) : Nat := wrap64 (left + (2 ^ 64 - wrap64 right))

def not64 (value : Nat) : Nat := 2 ^ 64 - 1 - wrap64 value

theorem wrap32_of_lt {value : Nat} (bound : value < 2 ^ 32) : wrap32 value = value :=
  Nat.mod_eq_of_lt bound

theorem wrap64_of_lt {value : Nat} (bound : value < 2 ^ 64) : wrap64 value = value :=
  Nat.mod_eq_of_lt bound

theorem wrap32_lt (value : Nat) : wrap32 value < 2 ^ 32 := Nat.mod_lt _ (by decide)

theorem add64_of_lt {left right : Nat} (bound : left + right < 2 ^ 64) :
    add64 left right = left + right := wrap64_of_lt bound

theorem sub64_of_le {left right : Nat} (order : right ≤ left) (bound : left < 2 ^ 64) :
    sub64 left right = left - right := by
  have rightBound : right < 2 ^ 64 := by omega
  unfold sub64
  rw [wrap64_of_lt rightBound]
  unfold wrap64
  omega

theorem and_not64_low_bits (value k : Nat) (bound : value < 2 ^ 64) (width : k ≤ 64) :
    value &&& not64 (2 ^ k - 1) = value / 2 ^ k * 2 ^ k := by
  have powerBound : 2 ^ k ≤ 2 ^ 64 := Nat.pow_le_pow_right (by decide) width
  have mask : not64 (2 ^ k - 1) = 2 ^ 64 - 2 ^ k := by
    have positive : 0 < 2 ^ k := by positivity
    unfold not64
    rw [wrap64_of_lt (by omega)]
    omega
  have maskShift : (2 ^ 64 - 2 ^ k : Nat) = (2 ^ (64 - k) - 1) <<< k := by
    rw [Nat.shiftLeft_eq, Nat.sub_mul, ← pow_add, Nat.sub_add_cancel width, Nat.one_mul]
  rw [mask, maskShift]
  apply Nat.eq_of_testBit_eq
  intro bit
  rw [← Nat.shiftLeft_eq, ← Nat.shiftRight_eq_div_pow]
  simp only [Nat.testBit_and, Nat.testBit_shiftLeft, Nat.testBit_shiftRight,
    Nat.testBit_two_pow_sub_one]
  by_cases low : bit < k
  · simp [Nat.not_le.mpr low]
  · by_cases high : bit < 64
    · have inside : bit - k < 64 - k := by omega
      simp [Nat.not_lt.mp low, inside, Nat.add_sub_cancel' (Nat.not_lt.mp low)]
    · have zero : value.testBit bit = false :=
        Nat.testBit_lt_two_pow (bound.trans_le
          (Nat.pow_le_pow_right (by decide) (Nat.not_lt.mp high)))
      simp [zero, Nat.add_sub_cancel' (Nat.not_lt.mp low)]

def roundUp (size alignment : Nat) : Nat := (size + alignment - 1) / alignment * alignment

section RoundUp

variable {size alignment : Nat} (positive : 0 < alignment)

theorem dvd_roundUp (size alignment : Nat) : alignment ∣ roundUp size alignment :=
  Nat.dvd_mul_left _ _

include positive

theorem le_roundUp : size ≤ roundUp size alignment := by
  have split := Nat.div_add_mod (size + alignment - 1) alignment
  have low := Nat.mod_lt (size + alignment - 1) positive
  rw [Nat.mul_comm] at split
  unfold roundUp
  omega

theorem roundUp_lt : roundUp size alignment < size + alignment := by
  have split := Nat.div_mul_le_self (size + alignment - 1) alignment
  unfold roundUp
  omega

theorem roundUp_of_dvd (aligned : alignment ∣ size) : roundUp size alignment = size := by
  rcases aligned with ⟨count, rfl⟩
  have quotient : (alignment * count + alignment - 1) / alignment = count := by
    apply Nat.div_eq_of_lt_le
    · rw [Nat.mul_comm]
      omega
    · rw [Nat.add_mul, Nat.mul_comm]
      omega
  rw [roundUp, quotient, Nat.mul_comm]

theorem roundUp_pos (nonempty : 0 < size) : 0 < roundUp size alignment :=
  Nat.lt_of_lt_of_le nonempty (le_roundUp positive)

end RoundUp

/-- The usual mask computation rounds up when the result fits in 64 bits. -/
theorem mask_roundUp {size k : Nat} (width : k < 64) (fits : roundUp size (2 ^ k) < 2 ^ 64) :
    sub64 (add64 size (2 ^ k)) 1 &&& not64 (sub64 (2 ^ k) 1) = roundUp size (2 ^ k) := by
  have positive : 0 < 2 ^ k := by positivity
  have powerBound : 2 ^ k < 2 ^ 64 := Nat.pow_lt_pow_right (by decide) width
  have power : (2 : Nat) ^ 64 = 2 ^ (64 - k) * 2 ^ k := by
    rw [← pow_add, Nat.sub_add_cancel (Nat.le_of_lt width)]
  have exact : size + 2 ^ k - 1 < 2 ^ 64 := by
    by_contra large
    have quotient : 2 ^ (64 - k) ≤ (size + 2 ^ k - 1) / 2 ^ k := by
      rw [Nat.le_div_iff_mul_le positive, ← power]
      omega
    have scaled := Nat.mul_le_mul_right (2 ^ k) quotient
    rw [← power] at scaled
    unfold roundUp at fits
    omega
  have raised : sub64 (add64 size (2 ^ k)) 1 = size + 2 ^ k - 1 := by
    unfold sub64 add64 wrap64
    omega
  have lowBits : sub64 (2 ^ k) 1 = 2 ^ k - 1 := sub64_of_le positive powerBound
  rw [raised, lowBits, and_not64_low_bits _ k exact (Nat.le_of_lt width)]
  rfl

end MachineWords
