import Crossover.Lib.Nearest

/-!
# Binary32 — single precision floats as bit patterns

A pattern has a sign, an exponent and a significand; a finite one stands for a rational number.  An
operation takes the exact result and rounds it to the nearest float, on a tie to the even one, and
to an infinity beyond the largest one.  The NaNs are not told apart: no comparison does.
-/

namespace Crossover
namespace Binary32

/-! ## Patterns -/

/-- The fields of a float's bit pattern. -/
def signBit (bits : UInt32) : Bool :=
  decide (2 ^ 31 ≤ bits.toNat)

def exponentBits (bits : UInt32) : Nat :=
  bits.toNat / 2 ^ 23 % 2 ^ 8

def mantissaBits (bits : UInt32) : Nat :=
  bits.toNat % 2 ^ 23

/-- Neither a NaN nor an infinity. -/
abbrev FloatFinite (bits : UInt32) : Prop :=
  exponentBits bits ≠ 255

/-- The size of a finite float, in units of the smallest one. -/
def floatSize (bits : UInt32) : Nat :=
  -- A subnormal number has the exponent of the smallest normal one and no hidden bit.
  if exponentBits bits = 0 then mantissaBits bits
  else (mantissaBits bits + 2 ^ 23) * 2 ^ (exponentBits bits - 1)

/-- With a significand behind it the largest exponent is no number. -/
def isNaN (bits : UInt32) : Bool :=
  decide (exponentBits bits = 255 ∧ mantissaBits bits ≠ 0)

def isInfinite (bits : UInt32) : Bool :=
  decide (exponentBits bits = 255 ∧ mantissaBits bits = 0)

def nan : UInt32 := 0x7FC00000

def infinity (negative : Bool) : UInt32 :=
  if negative then 0xFF800000 else 0x7F800000

/-- The digits of a float. -/
def significand : Format where
  base := 2
  fraction := 23
  two_le := by decide

/-- What a float stands for.  An infinity comes out above all finite floats, or below them. -/
def floatValue (bits : UInt32) : ℚ :=
  (if signBit bits then -1 else 1) * floatSize bits / 2 ^ 149

/-- The float with a sign and a size that a float can have. -/
def floatBits (negative : Bool) (size : ℕ) : UInt32 :=
  let k := significand.exponent size
  UInt32.ofNat ((if negative then 2 ^ 31 else 0) + (k * 2 ^ 23 + size / 2 ^ k))

/-! ## Operations -/

/-- The float nearest to a size; beyond the largest one the conversion fails. -/
def toFloat (negative : Bool) (size : ℚ) : Option UInt32 :=
  let rounded := significand.round (size * 2 ^ 149)
  if 2 ^ 277 ≤ rounded then none else some (floatBits negative rounded)

/-- The float for an exact result; `zeroSign` is the sign of a zero. -/
def rounded (zeroSign : Bool) (result : ℚ) : UInt32 :=
  let negative := if result = 0 then zeroSign else decide (result < 0)
  (toFloat negative |result|).getD (infinity negative)

def add (a b : UInt32) : UInt32 :=
  if isNaN a || isNaN b then nan
  else if isInfinite a then if isInfinite b && signBit a != signBit b then nan else a
  else if isInfinite b then b
  -- The sum of two negative zeros is the only negative one.
  else rounded (signBit a && signBit b) (floatValue a + floatValue b)

def sub (a b : UInt32) : UInt32 :=
  if isNaN a || isNaN b then nan
  else if isInfinite a then if isInfinite b && signBit a == signBit b then nan else a
  else if isInfinite b then infinity (!signBit b)
  else rounded (signBit a && !signBit b) (floatValue a - floatValue b)

def mul (a b : UInt32) : UInt32 :=
  let negative := signBit a != signBit b
  if isNaN a || isNaN b then nan
  else if isInfinite a || isInfinite b then
    if floatSize a = 0 ∨ floatSize b = 0 then nan else infinity negative
  else rounded negative (floatValue a * floatValue b)

/-- `a < b`; a NaN is on neither side of anything. -/
def lt (a b : UInt32) : Bool :=
  !isNaN a && !isNaN b && decide (floatValue a < floatValue b)

-- 1 + 2, the overflow of the largest float, and the tie between 2^24 and 2^24 + 2.
example : add 0x3F800000 0x40000000 = 0x40400000 ∧
    mul 0x7F7FFFFF 0x40000000 = infinity false ∧
    add 0x4B800000 0x3F800000 = 0x4B800000 := by
  decide +kernel

/-! ## Sizes -/

section Sizes

variable {bits : UInt32} {size : ℕ} {negative : Bool}

theorem representable_floatSize (bits : UInt32) : significand.Representable (floatSize bits) := by
  have hm : mantissaBits bits < 2 ^ 23 := Nat.mod_lt _ (by decide)
  rw [floatSize]
  split
  · exact ⟨mantissaBits bits, 0, hm.trans (by decide), by simp⟩
  · refine ⟨mantissaBits bits + 2 ^ 23, exponentBits bits - 1, ?_, rfl⟩
    have hpow : significand.base ^ (significand.fraction + 1) = 2 ^ 23 + 2 ^ 23 := by decide
    omega

/-- The exponent of a size below that of the infinity. -/
theorem exponent_le (hsize : size < 2 ^ 277) : significand.exponent size ≤ 253 := by
  by_cases hk : significand.exponent size = 0
  · omega
  · have hlow : 2 ^ (significand.exponent size + 23) ≤ size := by
      exact_mod_cast Format.pow_le_of_exponent (F := significand) (Nat.cast_nonneg size) hk
    have hexp := (Nat.pow_lt_pow_iff_right (by decide : 1 < 2)).1 (hlow.trans_lt hsize)
    omega

/-- The pattern built from a sign and a size is a finite float with this sign and size. -/
theorem floatBits_spec (h : significand.Representable size) (hsize : size < 2 ^ 277)
    (negative : Bool) :
    signBit (floatBits negative size) = negative ∧ FloatFinite (floatBits negative size) ∧
      floatSize (floatBits negative size) = size := by
  have hk := exponent_le hsize
  rcases h.split with ⟨hlt, hsplit, hnormal⟩
  change size / 2 ^ significand.exponent size < 2 ^ 24 at hlt
  change size = size / 2 ^ significand.exponent size * 2 ^ significand.exponent size at hsplit
  change _ → 2 ^ 23 ≤ size / 2 ^ significand.exponent size at hnormal
  have hpattern : (floatBits negative size).toNat = (if negative then 2 ^ 31 else 0) +
      (significand.exponent size * 2 ^ 23 + size / 2 ^ significand.exponent size) := by
    rw [floatBits, UInt32.toNat_ofNat', Nat.mod_eq_of_lt]
    split <;> omega
  generalize significand.exponent size = k at hk hlt hsplit hnormal hpattern
  generalize size / 2 ^ k = m at hlt hsplit hnormal hpattern
  -- A significand without its leading bit stands for itself and has the exponent field 0.
  have hfields : exponentBits (floatBits negative size) = k + m / 2 ^ 23 ∧
      mantissaBits (floatBits negative size) = m % 2 ^ 23 := by
    rw [exponentBits, mantissaBits, hpattern]
    cases negative <;> (constructor <;> simp <;> omega)
  refine ⟨?_, ?_, ?_⟩
  · rw [signBit, hpattern]
    cases negative with
    | true => simp
    | false =>
      simp only [Bool.false_eq_true, if_false, decide_eq_false_iff_not]
      omega
  · rw [FloatFinite, hfields.1]
    omega
  · rw [floatSize, hfields.1, hfields.2]
    by_cases hzero : k + m / 2 ^ 23 = 0
    · have hk0 : k = 0 := by omega
      rw [if_pos hzero, hsplit, hk0, pow_zero, mul_one]
      exact Nat.mod_eq_of_lt (by omega)
    · rw [if_neg hzero]
      have hlead : m / 2 ^ 23 = 1 := by
        by_cases hk0 : k = 0
        · omega
        · have hge := hnormal hk0
          omega
      have hback : m % 2 ^ 23 + 2 ^ 23 = m := by omega
      rw [hlead, hback, Nat.add_sub_cancel, ← hsplit]

/-- The size of the largest float. -/
def largestSize : ℕ :=
  (2 ^ 24 - 1) * 2 ^ 253

theorem floatSize_le (h : FloatFinite bits) : floatSize bits ≤ largestSize := by
  have hm : mantissaBits bits < 2 ^ 23 := Nat.mod_lt _ (by decide)
  have he : exponentBits bits < 2 ^ 8 := Nat.mod_lt _ (by decide)
  have hexp : exponentBits bits - 1 ≤ 253 := by omega
  have hsignificand : mantissaBits bits + 2 ^ 23 ≤ 2 ^ 24 - 1 := by omega
  rw [floatSize, largestSize]
  split
  · exact (by omega : mantissaBits bits ≤ 2 ^ 24 - 1).trans (Nat.le_mul_of_pos_right _ (by decide))
  · exact Nat.mul_le_mul hsignificand (Nat.pow_le_pow_right (by decide) hexp)

theorem abs_floatValue (bits : UInt32) : |floatValue bits| = floatSize bits / 2 ^ 149 := by
  have hnonneg : (0 : ℚ) ≤ floatSize bits := Nat.cast_nonneg _
  rw [floatValue]
  split
  · rw [neg_one_mul, neg_div, abs_neg, abs_of_nonneg (by positivity)]
  · rw [one_mul, abs_of_nonneg (by positivity)]

theorem toFloat_finite {negative : Bool} {size : ℚ} (hsize : 0 ≤ size) {bits : UInt32}
    (h : toFloat negative size = some bits) : FloatFinite bits := by
  rw [toFloat] at h
  split at h
  · cases h
  · rename_i hfits
    rw [← Option.some.inj h]
    exact (floatBits_spec (Format.representable_round (mul_nonneg hsize (by positivity)))
      (Nat.not_le.1 hfits) negative).2.1

end Sizes

/-! ## Differences of equal floats -/

/-- Zero or no number: what the difference of equal floats is, and what is made of such. -/
def Vanishes (bits : UInt32) : Prop :=
  bits = 0 ∨ bits = nan

section Vanishes

variable {a b : UInt32}

theorem vanishes_sub (bits : UInt32) : Vanishes (sub bits bits) := by
  by_cases hfinite : FloatFinite bits
  · left
    have hzero : rounded false 0 = 0 := by decide +kernel
    simp [sub, isNaN, isInfinite, hfinite, hzero]
  · -- An infinity has no difference from itself either.
    right
    have hmax : exponentBits bits = 255 := not_not.1 hfinite
    by_cases hmantissa : mantissaBits bits = 0
    · simp [sub, isNaN, isInfinite, hmax, hmantissa]
    · simp [sub, isNaN, hmax, hmantissa]

theorem Vanishes.mul_self (h : Vanishes a) : Vanishes (mul a a) := by
  rcases h with rfl | rfl
  · exact Or.inl (by decide +kernel)
  · exact Or.inr (by decide +kernel)

theorem Vanishes.add (ha : Vanishes a) (hb : Vanishes b) : Vanishes (add a b) := by
  rcases ha with rfl | rfl
  · rcases hb with rfl | rfl
    · exact Or.inl (by decide +kernel)
    · exact Or.inr (by decide +kernel)
  · exact Or.inr rfl

theorem Vanishes.not_one_lt (h : Vanishes a) : lt 0x3F800000 a = false := by
  rcases h with rfl | rfl
  · decide +kernel
  · decide +kernel

end Vanishes

end Binary32
end Crossover
