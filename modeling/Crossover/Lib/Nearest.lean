import Mathlib.Algebra.Order.Floor.Semiring
import Mathlib.Data.Nat.Log
import Mathlib.Data.Rat.Floor
import Mathlib.Tactic.FieldSimp
import Mathlib.Tactic.Linarith
import Mathlib.Tactic.Positivity
import Mathlib.Tactic.Ring

/-!
# Nearest — rounding to a fixed number of digits

A format has a base and a number of digits behind the leading one.  Measured in the smallest unit
of the format, its numbers are the `m * base ^ k` with a significand `m` of that many digits.

* `Format.round` takes the nearest number of the format, on a tie the one with the even significand;
* `Format.round_le` says that no other number of the format is nearer;
* `Format.round_of_closer` is what makes a conversion there and back settle: whatever lies at least
  as close to a rounded number as the number it was rounded from is rounded to it as well, except
  just below a power of the base, where the numbers lie denser.
-/

namespace Crossover

/-- The nearest natural number, on a tie the even one. -/
def nearest (q : ℚ) : ℕ :=
  let whole := ⌊q⌋₊
  if 1 / 2 < q - whole ∨ q - whole = 1 / 2 ∧ whole % 2 = 1 then whole + 1 else whole

section Nearest

variable {q r : ℚ} {m : ℕ}

/-- What the tie rule decides: at most half a unit off, and even where the half is reached. -/
theorem nearest_spec (hq : 0 ≤ q) :
    |(nearest q : ℚ) - q| ≤ 1 / 2 ∧ (|(nearest q : ℚ) - q| = 1 / 2 → nearest q % 2 = 0) := by
  have hlow := Nat.floor_le hq
  have hhigh := Nat.lt_floor_add_one q
  simp only [nearest]
  split
  · rename_i hup
    have hhalf : 1 / 2 ≤ q - ⌊q⌋₊ := by
      rcases hup with hover | ⟨htie, -⟩
      · exact hover.le
      · exact htie.ge
    have hdist : |((⌊q⌋₊ + 1 : ℕ) : ℚ) - q| = ⌊q⌋₊ + 1 - q := by
      rw [Nat.cast_succ, abs_of_nonneg (by linarith)]
    rw [hdist]
    refine ⟨by linarith, ?_⟩
    intro htie
    rcases hup with hover | ⟨-, hodd⟩
    · linarith
    · omega
  · rename_i hdown
    rcases not_or.1 hdown with ⟨hover, htie⟩
    have hdist : |(⌊q⌋₊ : ℚ) - q| = q - ⌊q⌋₊ := by
      rw [abs_sub_comm, abs_of_nonneg (by linarith)]
    rw [hdist]
    refine ⟨not_lt.1 hover, ?_⟩
    intro hhalf
    have heven : ¬ ⌊q⌋₊ % 2 = 1 := fun hodd => htie ⟨hhalf, hodd⟩
    omega

/-- Two naturals that are both within half a unit are the same, unless both are on a tie. -/
theorem nearest_unique (hq : 0 ≤ q) (hm : |(m : ℚ) - q| ≤ 1 / 2)
    (heven : |(m : ℚ) - q| = 1 / 2 → m % 2 = 0) : nearest q = m := by
  rcases nearest_spec hq with ⟨hn, hneven⟩
  rcases abs_le.1 hm with ⟨hm₁, hm₂⟩
  rcases abs_le.1 hn with ⟨hn₁, hn₂⟩
  rcases lt_trichotomy (nearest q) m with hlt | heq | hgt
  · have hgap : ((nearest q : ℕ) : ℚ) + 1 ≤ m := by exact_mod_cast hlt
    -- A whole unit apart, so each is half a unit away; but neighbours are not both even.
    have hmq : (m : ℚ) - q = 1 / 2 := by linarith
    have hnq : (nearest q : ℚ) - q = -(1 / 2) := by linarith
    have hnext : m = nearest q + 1 := by
      have : (m : ℚ) = nearest q + 1 := by linarith
      exact_mod_cast this
    have hmtie := heven (by rw [hmq]; norm_num)
    have hntie := hneven (by rw [hnq]; norm_num)
    omega
  · exact heq
  · have hgap : (m : ℚ) + 1 ≤ nearest q := by exact_mod_cast hgt
    have hmq : (m : ℚ) - q = -(1 / 2) := by linarith
    have hnq : (nearest q : ℚ) - q = 1 / 2 := by linarith
    have hnext : nearest q = m + 1 := by
      have : (nearest q : ℚ) = m + 1 := by linarith
      exact_mod_cast this
    have hmtie := heven (by rw [hmq]; norm_num)
    have hntie := hneven (by rw [hnq]; norm_num)
    omega

theorem nearest_eq_of_lt (hq : 0 ≤ q) (hm : |(m : ℚ) - q| < 1 / 2) : nearest q = m :=
  nearest_unique hq hm.le fun htie => absurd htie hm.ne

/-- What is no farther from the result is rounded to it as well. -/
theorem nearest_of_closer (hq : 0 ≤ q) (hr : 0 ≤ r)
    (hcloser : |(nearest q : ℚ) - r| ≤ |(nearest q : ℚ) - q|) : nearest r = nearest q := by
  rcases nearest_spec hq with ⟨hn, hneven⟩
  refine nearest_unique hr (hcloser.trans hn) ?_
  intro htie
  exact hneven (le_antisymm hn (htie ▸ hcloser))

/-- No natural number is nearer. -/
theorem nearest_le (hq : 0 ≤ q) (m : ℕ) : |(nearest q : ℚ) - q| ≤ |(m : ℚ) - q| := by
  by_contra hfar
  have hhalf := (nearest_spec hq).1
  have hm := nearest_eq_of_lt hq (m := m) (lt_of_lt_of_le (not_le.1 hfar) hhalf)
  rw [hm] at hfar
  exact hfar le_rfl

end Nearest

/-- So many digits to a base: a leading one and those behind it. -/
structure Format where
  base : ℕ
  /-- The digits behind the leading one. -/
  fraction : ℕ
  two_le : 2 ≤ base

namespace Format

variable (F : Format)

/-- The exponent of the last digit that is kept. -/
def exponent (q : ℚ) : ℕ :=
  Nat.log F.base ⌊q⌋₊ - F.fraction

/-- The nearest number of the format. -/
def round (q : ℚ) : ℕ :=
  nearest (q / F.base ^ F.exponent q) * F.base ^ F.exponent q

/-- The number has no more digits than the format. -/
def Representable (n : ℕ) : Prop :=
  ∃ m k, m < F.base ^ (F.fraction + 1) ∧ n = m * F.base ^ k

variable {F} {q r : ℚ} {n k : ℕ}

theorem base_pos : 0 < F.base :=
  lt_of_lt_of_le Nat.two_pos F.two_le

theorem one_lt_base : 1 < F.base :=
  F.two_le

theorem unit_pos (k : ℕ) : (0 : ℚ) < (F.base : ℚ) ^ k :=
  pow_pos (Nat.cast_pos.2 F.base_pos) k

theorem two_mul_le (F : Format) {x : ℚ} (hx : 0 ≤ x) : 2 * x ≤ F.base * x :=
  mul_le_mul_of_nonneg_right (by exact_mod_cast F.two_le) hx

/-! ## The exponent -/

theorem lt_pow_exponent (hq : 0 ≤ q) : q < (F.base : ℚ) ^ (F.exponent q + F.fraction + 1) := by
  have hlog := Nat.lt_pow_succ_log_self F.one_lt_base ⌊q⌋₊
  have hfloor : ⌊q⌋₊ < F.base ^ (F.exponent q + F.fraction + 1) := by
    refine hlog.trans_le (Nat.pow_le_pow_right F.base_pos ?_)
    simp only [exponent]
    omega
  exact_mod_cast (Nat.floor_lt hq).1 hfloor

theorem pow_le_of_exponent (hq : 0 ≤ q) (h : F.exponent q ≠ 0) :
    (F.base : ℚ) ^ (F.exponent q + F.fraction) ≤ q := by
  have hlog : F.exponent q + F.fraction = Nat.log F.base ⌊q⌋₊ := by
    simp only [exponent] at h ⊢
    omega
  have hne : ⌊q⌋₊ ≠ 0 := by
    intro hzero
    simp [exponent, hzero] at h
  have hfloor := Nat.pow_log_le_self F.base hne
  rw [hlog]
  exact_mod_cast (Nat.le_floor_iff hq).1 hfloor

/-- The exponent is read off the range the number lies in. -/
theorem exponent_eq (hq : 0 ≤ q) (hhigh : q < (F.base : ℚ) ^ (k + F.fraction + 1))
    (hlow : k ≠ 0 → (F.base : ℚ) ^ (k + F.fraction) ≤ q) : F.exponent q = k := by
  have hfloor : ⌊q⌋₊ < F.base ^ (k + F.fraction + 1) := by
    rw [Nat.floor_lt hq]
    exact_mod_cast hhigh
  by_cases hk : k = 0
  · subst hk
    have hlog : Nat.log F.base ⌊q⌋₊ < F.fraction + 1 :=
      Nat.log_lt_of_lt_pow' (by omega) (by simpa using hfloor)
    simp only [exponent]
    omega
  · have hpow : F.base ^ (k + F.fraction) ≤ ⌊q⌋₊ := by
      rw [Nat.le_floor_iff hq]
      exact_mod_cast hlow hk
    have hlog : Nat.log F.base ⌊q⌋₊ = k + F.fraction :=
      (Nat.log_eq_iff (Or.inl (by omega))).2 ⟨hpow, hfloor⟩
    simp only [exponent, hlog]
    omega

/-! ## Rounding -/

/-- Rounding with an exponent that is known. -/
theorem round_eq (hk : F.exponent q = k) :
    F.round q = nearest (q / (F.base : ℚ) ^ k) * F.base ^ k := by
  rw [round, hk]

/-- Distances in the unit of the last digit. -/
theorem abs_scaled (m : ℕ) (q : ℚ) (k : ℕ) :
    |((m * F.base ^ k : ℕ) : ℚ) - q| =
      |(m : ℚ) - q / (F.base : ℚ) ^ k| * (F.base : ℚ) ^ k := by
  have hpos := F.unit_pos k
  calc |((m * F.base ^ k : ℕ) : ℚ) - q|
      = |((m : ℚ) - q / (F.base : ℚ) ^ k) * (F.base : ℚ) ^ k| := by
        congr 1
        rw [sub_mul, div_mul_cancel₀ _ hpos.ne']
        push_cast
        ring
    _ = |(m : ℚ) - q / (F.base : ℚ) ^ k| * (F.base : ℚ) ^ k := by
        rw [abs_mul, abs_of_pos hpos]

theorem scaled_nonneg (hq : 0 ≤ q) (k : ℕ) : 0 ≤ q / (F.base : ℚ) ^ k :=
  div_nonneg hq (F.unit_pos k).le

/-- The error is at most half a unit of the last digit. -/
theorem round_error (hq : 0 ≤ q) :
    |(F.round q : ℚ) - q| ≤ (F.base : ℚ) ^ F.exponent q / 2 := by
  have hhalf := (nearest_spec (scaled_nonneg (F := F) hq (F.exponent q))).1
  rw [round, abs_scaled]
  have hmul := mul_le_mul_of_nonneg_right hhalf (F.unit_pos (F.exponent q)).le
  linarith

/-- A number of the format is a multiple of the last digit's unit from the leading digit on. -/
theorem Representable.multiple (h : F.Representable n)
    (hlow : F.base ^ (k + F.fraction) ≤ n) : ∃ m, n = m * F.base ^ k := by
  rcases h with ⟨m, j, hm, rfl⟩
  have hexp : k ≤ j := by
    by_contra hlt
    have hbound : m * F.base ^ j < F.base ^ (F.fraction + 1) * F.base ^ j :=
      Nat.mul_lt_mul_of_pos_right hm (Nat.pow_pos F.base_pos)
    have hpow : F.base ^ (F.fraction + 1) * F.base ^ j ≤ F.base ^ (k + F.fraction) := by
      rw [← pow_add]
      exact Nat.pow_le_pow_right F.base_pos (by omega)
    omega
  refine ⟨m * F.base ^ (j - k), ?_⟩
  rw [mul_assoc, ← pow_add, Nat.sub_add_cancel hexp]

/-- No number of the format is nearer. -/
theorem round_le (hq : 0 ≤ q) (hn : F.Representable n) :
    |(F.round q : ℚ) - q| ≤ |(n : ℚ) - q| := by
  have hmultiple : ∀ m : ℕ,
      |(F.round q : ℚ) - q| ≤ |((m * F.base ^ F.exponent q : ℕ) : ℚ) - q| := by
    intro m
    rw [round, abs_scaled, abs_scaled]
    exact mul_le_mul_of_nonneg_right (nearest_le (scaled_nonneg hq _) m) (F.unit_pos _).le
  by_cases hk : F.exponent q = 0
  · have hall := hmultiple n
    rwa [hk, pow_zero, mul_one] at hall
  · by_cases hlow : F.base ^ (F.exponent q + F.fraction) ≤ n
    · rcases hn.multiple hlow with ⟨m, rfl⟩
      exact hmultiple m
    · -- A smaller number is no nearer than the power between the two, which is a multiple.
      have hpow := pow_le_of_exponent hq hk
      have hlt : (n : ℚ) < (F.base : ℚ) ^ (F.exponent q + F.fraction) := by
        exact_mod_cast not_le.1 hlow
      have hedge := hmultiple (F.base ^ F.fraction)
      have hcast : ((F.base ^ F.fraction * F.base ^ F.exponent q : ℕ) : ℚ) =
          (F.base : ℚ) ^ (F.exponent q + F.fraction) := by
        push_cast
        ring
      rw [hcast, abs_of_nonpos (sub_nonpos.2 hpow)] at hedge
      have hdist : |(n : ℚ) - q| = q - n := by
        rw [abs_of_neg (by linarith)]
        ring
      rw [hdist]
      linarith

/-- Rounding changes no number of the format. -/
theorem round_of_representable (hn : F.Representable n) : F.round n = n := by
  have hnear := round_le (q := (n : ℚ)) (Nat.cast_nonneg n) hn
  rw [sub_self, abs_zero] at hnear
  have hzero := abs_eq_zero.1 (le_antisymm hnear (abs_nonneg _))
  exact_mod_cast sub_eq_zero.1 hzero

theorem round_zero (F : Format) : F.round 0 = 0 := by
  have hzero := round_of_representable (F := F) (n := 0) ⟨0, 0, Nat.pow_pos F.base_pos, by simp⟩
  exact_mod_cast hzero

/-- The significand may come out with a digit too many, but then it is a power of the base. -/
theorem nearest_le_pow (hq : 0 ≤ q) :
    nearest (q / (F.base : ℚ) ^ F.exponent q) ≤ F.base ^ (F.fraction + 1) := by
  have hlt := lt_pow_exponent (F := F) hq
  have hscaled : q / (F.base : ℚ) ^ F.exponent q < (F.base : ℚ) ^ (F.fraction + 1) := by
    rw [div_lt_iff₀ (F.unit_pos _), ← pow_add]
    calc q < (F.base : ℚ) ^ (F.exponent q + F.fraction + 1) := hlt
      _ = (F.base : ℚ) ^ (F.fraction + 1 + F.exponent q) := by ring
  have hhalf := abs_le.1 (nearest_spec (scaled_nonneg (F := F) hq (F.exponent q))).1
  have hcast : (nearest (q / (F.base : ℚ) ^ F.exponent q) : ℚ) <
      ((F.base ^ (F.fraction + 1) + 1 : ℕ) : ℚ) := by
    push_cast
    linarith [hhalf.2]
  have hnat : nearest (q / (F.base : ℚ) ^ F.exponent q) < F.base ^ (F.fraction + 1) + 1 := by
    exact_mod_cast hcast
  omega

theorem representable_round (hq : 0 ≤ q) : F.Representable (F.round q) := by
  rcases (nearest_le_pow (F := F) hq).lt_or_eq with hlt | htop
  · exact ⟨_, _, hlt, rfl⟩
  · refine ⟨F.base ^ F.fraction, F.exponent q + 1, ?_, ?_⟩
    · exact Nat.pow_lt_pow_right F.one_lt_base (by omega)
    · rw [round, htop]
      ring

/-- The digits of a number of the format and their exponent. -/
theorem Representable.split (h : F.Representable n) :
    let k := F.exponent n
    n / F.base ^ k < F.base ^ (F.fraction + 1) ∧ n = n / F.base ^ k * F.base ^ k ∧
      (k ≠ 0 → F.base ^ F.fraction ≤ n / F.base ^ k) := by
  intro k
  have hnonneg : (0 : ℚ) ≤ n := Nat.cast_nonneg _
  have hpos : 0 < F.base ^ k := Nat.pow_pos F.base_pos
  have hlt : n < F.base ^ (k + F.fraction + 1) := by
    exact_mod_cast lt_pow_exponent (F := F) hnonneg
  have hlow : k ≠ 0 → F.base ^ (k + F.fraction) ≤ n := by
    intro hk
    exact_mod_cast pow_le_of_exponent (F := F) hnonneg hk
  refine ⟨?_, ?_, ?_⟩
  · rw [Nat.div_lt_iff_lt_mul hpos, ← pow_add]
    calc n < F.base ^ (k + F.fraction + 1) := hlt
      _ = F.base ^ (F.fraction + 1 + k) := by ring
  · by_cases hk : k = 0
    · simp [hk]
    · rcases h.multiple (hlow hk) with ⟨m, hm⟩
      have hdvd : F.base ^ k ∣ n := ⟨m, by rw [hm, mul_comm]⟩
      exact (Nat.div_mul_cancel hdvd).symm
  · intro hk
    rw [Nat.le_div_iff_mul_le hpos, ← pow_add]
    calc F.base ^ (F.fraction + k) = F.base ^ (k + F.fraction) := by ring
      _ ≤ n := hlow hk

/-- The leading digit stays in place, or the next power of the base is reached. -/
theorem pow_le_round (hq : 0 ≤ q) (h : F.exponent q ≠ 0) :
    F.base ^ (F.exponent q + F.fraction) ≤ F.round q := by
  by_contra hlt
  have hpow := pow_le_of_exponent hq h
  have hedge := round_le (F := F) hq (n := F.base ^ (F.exponent q + F.fraction))
    ⟨1, _, Nat.one_lt_pow (by omega) F.one_lt_base, (one_mul _).symm⟩
  have hbelow : (F.round q : ℚ) < (F.base : ℚ) ^ (F.exponent q + F.fraction) := by
    exact_mod_cast not_le.1 hlt
  push_cast at hedge
  rw [abs_of_neg (by linarith), abs_of_nonpos (by linarith)] at hedge
  linarith

/-! ## Numbers that are rounded alike -/

section Closer

variable (hq : 0 ≤ q) (hr : 0 ≤ r) (hcloser : |(F.round q : ℚ) - r| ≤ |(F.round q : ℚ) - q|)

include hq hcloser

theorem closer_error : |(F.round q : ℚ) - r| ≤ (F.base : ℚ) ^ F.exponent q / 2 :=
  hcloser.trans (round_error hq)

include hr

/-- In the same range the significand is the same. -/
theorem round_of_closer_within (hk : F.exponent r = F.exponent q) : F.round r = F.round q := by
  have hscaled := hcloser
  rw [round_eq rfl, abs_scaled, abs_scaled] at hscaled
  have hnearer := le_of_mul_le_mul_right hscaled (F.unit_pos _)
  rw [round_eq hk, round_eq rfl,
    nearest_of_closer (scaled_nonneg hq _) (scaled_nonneg hr _) hnearer]

/-- A power of the base is what is rounded to from above, too. -/
theorem round_of_closer_above
    (hhigh : (F.base : ℚ) ^ (F.exponent q + F.fraction + 1) ≤ r) : F.round r = F.round q := by
  have herror := abs_le.1 (closer_error hq hcloser)
  have hpos := F.unit_pos (F.exponent q)
  generalize hk : F.exponent q = k at *
  -- The rounded number is a multiple of the unit, so it is the power itself.
  have htop : F.round q = F.base ^ (k + F.fraction + 1) := by
    have hle := nearest_le_pow (F := F) hq
    rw [hk] at hle
    have hge : F.base ^ (F.fraction + 1) ≤ nearest (q / (F.base : ℚ) ^ k) := by
      by_contra hlt
      have hstep : ((nearest (q / (F.base : ℚ) ^ k) + 1 : ℕ) : ℚ) * (F.base : ℚ) ^ k ≤
          ((F.base ^ (F.fraction + 1) : ℕ) : ℚ) * (F.base : ℚ) ^ k :=
        mul_le_mul_of_nonneg_right (by exact_mod_cast not_le.1 hlt) hpos.le
      rw [round_eq hk] at herror
      push_cast at hstep herror
      have hpow : (F.base : ℚ) ^ (F.fraction + 1) * (F.base : ℚ) ^ k =
          (F.base : ℚ) ^ (k + F.fraction + 1) := by ring
      linarith [herror.1]
    rw [round_eq hk, le_antisymm hle hge]
    ring
  have hexp : F.exponent r = k + 1 := by
    refine exponent_eq hr ?_ fun _ => ?_
    · have hbase := two_mul_le F (F.unit_pos (k + F.fraction + 1)).le
      have hunit : (F.base : ℚ) ^ k ≤ (F.base : ℚ) ^ (k + F.fraction + 1) :=
        pow_le_pow_right₀ (by exact_mod_cast F.base_pos) (by omega)
      rw [htop] at herror
      push_cast at herror
      calc r ≤ (F.base : ℚ) ^ (k + F.fraction + 1) + (F.base : ℚ) ^ k / 2 := by
            linarith [herror.1]
        _ < 2 * (F.base : ℚ) ^ (k + F.fraction + 1) := by linarith
        _ ≤ F.base * (F.base : ℚ) ^ (k + F.fraction + 1) := hbase
        _ = (F.base : ℚ) ^ (k + 1 + F.fraction + 1) := by ring
    · calc (F.base : ℚ) ^ (k + 1 + F.fraction) = (F.base : ℚ) ^ (k + F.fraction + 1) := by ring
        _ ≤ r := hhigh
  have hsignificand : nearest (r / (F.base : ℚ) ^ (k + 1)) = F.base ^ F.fraction := by
    refine nearest_eq_of_lt (scaled_nonneg hr _) ?_
    have hdist := abs_scaled (F := F) (F.base ^ F.fraction) r (k + 1)
    have hpower : F.base ^ F.fraction * F.base ^ (k + 1) = F.round q := by
      rw [htop]
      ring
    rw [hpower] at hdist
    have hbase := two_mul_le F hpos.le
    have hbound : |((F.base ^ F.fraction : ℕ) : ℚ) - r / (F.base : ℚ) ^ (k + 1)| *
        (F.base : ℚ) ^ (k + 1) < 1 / 2 * (F.base : ℚ) ^ (k + 1) := by
      calc _ = |(F.round q : ℚ) - r| := hdist.symm
        _ ≤ (F.base : ℚ) ^ k / 2 := abs_le.2 herror
        _ < 1 / 2 * (2 * (F.base : ℚ) ^ k) := by linarith
        _ ≤ 1 / 2 * (F.base * (F.base : ℚ) ^ k) := by linarith
        _ = 1 / 2 * (F.base : ℚ) ^ (k + 1) := by ring
    exact lt_of_mul_lt_mul_right hbound (F.unit_pos _).le
  rw [round_eq hexp, hsignificand, htop]
  ring

/-- Below a power of the base the last digit is worth less. -/
theorem round_of_closer_below (hk : F.exponent q ≠ 0)
    (hlow : r < (F.base : ℚ) ^ (F.exponent q + F.fraction))
    (hedge : ∀ j, F.round q = F.base ^ (j + 1 + F.fraction) → r < F.round q →
      2 * ((F.round q : ℚ) - r) < (F.base : ℚ) ^ j) : F.round r = F.round q := by
  have herror := abs_le.1 (closer_error hq hcloser)
  have hround := pow_le_round (F := F) hq hk
  rcases Nat.exists_eq_add_one_of_ne_zero hk with ⟨j, hj⟩
  rw [hj] at herror hround hlow
  have hpos := F.unit_pos (j + 1)
  have hbottom : F.round q = F.base ^ (j + 1 + F.fraction) := by
    refine le_antisymm ?_ hround
    have hle : nearest (q / (F.base : ℚ) ^ (j + 1)) ≤ F.base ^ F.fraction := by
      by_contra hgt
      have hstep : ((F.base ^ F.fraction + 1 : ℕ) : ℚ) * (F.base : ℚ) ^ (j + 1) ≤
          (nearest (q / (F.base : ℚ) ^ (j + 1)) : ℚ) * (F.base : ℚ) ^ (j + 1) :=
        mul_le_mul_of_nonneg_right (by exact_mod_cast not_le.1 hgt) hpos.le
      rw [round_eq hj] at herror
      push_cast at hstep herror
      have hpow : (F.base : ℚ) ^ F.fraction * (F.base : ℚ) ^ (j + 1) =
          (F.base : ℚ) ^ (j + 1 + F.fraction) := by ring
      linarith [herror.2]
    rw [round_eq hj]
    calc nearest (q / (F.base : ℚ) ^ (j + 1)) * F.base ^ (j + 1)
        ≤ F.base ^ F.fraction * F.base ^ (j + 1) := Nat.mul_le_mul_right _ hle
      _ = F.base ^ (j + 1 + F.fraction) := by ring
  have hbelow : r < F.round q := by
    rw [hbottom]
    exact_mod_cast hlow
  have hgap := hedge j hbottom hbelow
  have hcast : (F.round q : ℚ) = (F.base : ℚ) ^ (j + 1 + F.fraction) := by
    rw [hbottom]
    push_cast
    rfl
  have hexp : F.exponent r = j := by
    refine exponent_eq hr ?_ fun _ => ?_
    · calc r < (F.base : ℚ) ^ (j + 1 + F.fraction) := hlow
        _ = (F.base : ℚ) ^ (j + F.fraction + 1) := by ring
    · have hbase := two_mul_le F (F.unit_pos (j + F.fraction)).le
      have hunit : (F.base : ℚ) ^ j ≤ (F.base : ℚ) ^ (j + F.fraction) :=
        pow_le_pow_right₀ (by exact_mod_cast F.base_pos) (by omega)
      have hpower : (F.base : ℚ) ^ (j + 1 + F.fraction) =
          F.base * (F.base : ℚ) ^ (j + F.fraction) := by ring
      rw [hcast, hpower] at hgap
      linarith [F.unit_pos j]
  have hsignificand : nearest (r / (F.base : ℚ) ^ j) = F.base ^ (F.fraction + 1) := by
    refine nearest_eq_of_lt (scaled_nonneg hr _) ?_
    have hdist := abs_scaled (F := F) (F.base ^ (F.fraction + 1)) r j
    have hpower : F.base ^ (F.fraction + 1) * F.base ^ j = F.round q := by
      rw [hbottom]
      ring
    rw [hpower, abs_of_nonneg (by linarith)] at hdist
    have hbound : |((F.base ^ (F.fraction + 1) : ℕ) : ℚ) - r / (F.base : ℚ) ^ j| *
        (F.base : ℚ) ^ j < 1 / 2 * (F.base : ℚ) ^ j := by
      rw [← hdist]
      linarith
    exact lt_of_mul_lt_mul_right hbound (F.unit_pos _).le
  rw [round_eq hexp, hsignificand, hbottom]
  ring

/-- Whatever is no farther from a rounded number than the number it came from is rounded to it.
Only below a power of the base, where the numbers of the format lie denser, this takes more. -/
theorem round_of_closer
    (hedge : ∀ j, F.round q = F.base ^ (j + 1 + F.fraction) → r < F.round q →
      2 * ((F.round q : ℚ) - r) < (F.base : ℚ) ^ j) : F.round r = F.round q := by
  by_cases hhigh : (F.base : ℚ) ^ (F.exponent q + F.fraction + 1) ≤ r
  · exact round_of_closer_above hq hr hcloser hhigh
  by_cases hlow : F.exponent q ≠ 0 ∧ r < (F.base : ℚ) ^ (F.exponent q + F.fraction)
  · exact round_of_closer_below hq hr hcloser hlow.1 hlow.2 hedge
  · refine round_of_closer_within hq hr hcloser (exponent_eq hr (not_le.1 hhigh) ?_)
    intro hk
    exact not_lt.1 fun hlt => hlow ⟨hk, hlt⟩

end Closer

/-! ## To another format and back -/

section Conversion

variable {G : Format} {ρ : ℚ}

/-- The number of `G` that is read for what `F` keeps of the number `n` of `G`; a unit of `F` is `ρ`
units of `G`. -/
def back (F G : Format) (ρ : ℚ) (n : ℕ) : ℕ :=
  G.round (F.round (n / ρ) * ρ)

variable (hρ : 0 < ρ) (hn : G.Representable n)

include hρ

theorem kept_nonneg : 0 ≤ (F.round ((n : ℚ) / ρ) : ℚ) * ρ :=
  mul_nonneg (Nat.cast_nonneg _) hρ.le

theorem unscaled_nonneg (n : ℕ) : 0 ≤ (n : ℚ) / ρ :=
  div_nonneg (Nat.cast_nonneg n) hρ.le

include hn

/-- The number itself could have been read, so what is read is no farther from what was kept. -/
theorem back_closer : |(F.round ((n : ℚ) / ρ) : ℚ) - (back F G ρ n : ℚ) / ρ| ≤
    |(F.round ((n : ℚ) / ρ) : ℚ) - (n : ℚ) / ρ| := by
  have hnear := round_le (F := G) (kept_nonneg (F := F) (n := n) hρ) hn
  have hscale : ∀ m : ℕ, |(F.round ((n : ℚ) / ρ) : ℚ) - (m : ℚ) / ρ| =
      |(m : ℚ) - F.round ((n : ℚ) / ρ) * ρ| / ρ := by
    intro m
    calc |(F.round ((n : ℚ) / ρ) : ℚ) - (m : ℚ) / ρ|
        = |((m : ℚ) - F.round ((n : ℚ) / ρ) * ρ) / ρ| := by
          rw [abs_sub_comm, sub_div, mul_div_cancel_right₀ _ hρ.ne']
      _ = |(m : ℚ) - F.round ((n : ℚ) / ρ) * ρ| / ρ := by rw [abs_div, abs_of_pos hρ]
  rw [hscale, hscale, back]
  exact div_le_div_of_nonneg_right hnear hρ.le

/-- What is read is within one unit of the last digit that was kept. -/
theorem back_error : |(back F G ρ n : ℚ) / ρ - (n : ℚ) / ρ| ≤
    (F.base : ℚ) ^ F.exponent ((n : ℚ) / ρ) := by
  have herror := round_error (F := F) (unscaled_nonneg hρ n)
  have hcloser := back_closer (F := F) hρ hn
  rw [abs_sub_comm _ ((back F G ρ n : ℚ) / ρ)] at hcloser
  calc |(back F G ρ n : ℚ) / ρ - (n : ℚ) / ρ|
      ≤ |(back F G ρ n : ℚ) / ρ - F.round ((n : ℚ) / ρ)| +
          |(F.round ((n : ℚ) / ρ) : ℚ) - (n : ℚ) / ρ| := abs_sub_le _ _ _
    _ ≤ (F.base : ℚ) ^ F.exponent ((n : ℚ) / ρ) / 2 +
          (F.base : ℚ) ^ F.exponent ((n : ℚ) / ρ) / 2 :=
        add_le_add (hcloser.trans herror) herror
    _ = (F.base : ℚ) ^ F.exponent ((n : ℚ) / ρ) := by ring

/-- Where the numbers of `G` are a unit of `F`'s last digit apart, or more, nothing is lost. -/
theorem back_eq (hcoarse : (F.base : ℚ) ^ F.exponent ((n : ℚ) / ρ) < 1 / ρ) :
    back F G ρ n = n := by
  by_contra hne
  have herror := back_error (F := F) hρ hn
  have hapart : 1 ≤ |(back F G ρ n : ℚ) - n| := by
    have hint : (1 : ℤ) ≤ |(back F G ρ n : ℤ) - n| := by
      have hpos := abs_pos.2 (sub_ne_zero.2 (fun h : (back F G ρ n : ℤ) = n =>
        hne (by exact_mod_cast h)))
      omega
    exact_mod_cast hint
  rw [← sub_div, abs_div, abs_of_pos hρ] at herror
  have hunit := div_le_div_of_nonneg_right hapart hρ.le
  linarith

/-- What is read is kept as what it was read from.  The condition is about the powers of `F`'s base
only: just below one, the number of `G` nearest to it has to be nearer than the next number of
`F`. -/
theorem round_back
    (hedge : ∀ j, F.round ((n : ℚ) / ρ) = F.base ^ (j + 1 + F.fraction) →
      1 / ρ ≤ (F.base : ℚ) ^ (j + 1) →
      let power : ℚ := (F.base : ℚ) ^ (j + 1 + F.fraction)
      (G.round (power * ρ) : ℚ) / ρ < power →
        2 * (power - G.round (power * ρ) / ρ) < (F.base : ℚ) ^ j) :
    F.round ((back F G ρ n : ℚ) / ρ) = F.round ((n : ℚ) / ρ) := by
  by_cases hcoarse : (F.base : ℚ) ^ F.exponent ((n : ℚ) / ρ) < 1 / ρ
  · rw [back_eq hρ hn hcoarse]
  refine round_of_closer (unscaled_nonneg hρ n) (unscaled_nonneg hρ _) (back_closer hρ hn) ?_
  intro j hpower hbelow
  have hcast : (F.round ((n : ℚ) / ρ) : ℚ) = (F.base : ℚ) ^ (j + 1 + F.fraction) := by
    rw [hpower]
    push_cast
    rfl
  have hread : (back F G ρ n : ℚ) = G.round ((F.base : ℚ) ^ (j + 1 + F.fraction) * ρ) := by
    rw [back, hcast]
  have hunit : 1 / ρ ≤ (F.base : ℚ) ^ (j + 1) := by
    refine (not_lt.1 hcoarse).trans (pow_le_pow_right₀ (by exact_mod_cast F.base_pos) ?_)
    -- The power is not below the leading digit of what it was rounded from.
    by_contra hlt
    have hlead := pow_le_round (F := F) (unscaled_nonneg hρ n) (by omega)
    rw [hpower] at hlead
    have hexp := (Nat.pow_le_pow_iff_right F.one_lt_base).1 hlead
    omega
  rw [hcast, hread] at hbelow ⊢
  exact hedge j hpower hunit hbelow

end Conversion

end Format
end Crossover
