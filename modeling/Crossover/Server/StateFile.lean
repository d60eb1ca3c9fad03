import Mathlib.Data.List.DropRight
import Crossover.Server.Status

/-!
# StateFile — the rendezvous point on disk

`PersistAnchor` writes the three floats of a position with the default precision of a stream, six
digits, and `LoadPersistedAnchor` reads three floats back.  A finite position is always read back,
within one part in a hundred thousand, and is then written as it was; one that is not finite never
is.
-/

namespace Crossover
namespace Server

open Wire Json Binary32

/-! ## Digits -/

/-- The digits of a number that a stream prints by default. -/
def sixDigits : Format where
  base := 10
  fraction := 5
  two_le := by decide

/-- How many of the smallest float make up `10 ^ -50`, the unit of the decimal digits. -/
def unitRatio : ℚ :=
  2 ^ 149 / 10 ^ 50

/-! ## `operator<<` -/

/-- The size of a float in units of `10 ^ -50`, to six digits. -/
def printedSize (bits : UInt32) : ℕ :=
  sixDigits.round (floatSize bits / unitRatio)

/-- The point and the digits behind it; zeros at the end are not printed. -/
def fractionText (digits : List Char) : List Char :=
  point (digits.rdropWhile fun c => c == '0')

def exponentText (exponent : ℤ) : List Char :=
  'e' :: (if exponent < 0 then '-' else '+') ::
    ((if exponent.natAbs < 10 then ['0'] else []) ++ Nat.toDigits 10 exponent.natAbs)

/-- A positive number of six digits in the notation of `%g`. -/
def generalText (size : ℕ) : List Char :=
  let k := sixDigits.exponent size
  let digits := Nat.toDigits 10 (size / 10 ^ k)
  let exponent : ℤ := k + 5 - 50
  -- Scientific notation below 0.0001 and from a million on.
  if exponent < -4 ∨ 6 ≤ exponent then
    digits.take 1 ++ (fractionText (digits.drop 1) ++ exponentText exponent)
  else if 0 ≤ exponent then
    digits.take (exponent.toNat + 1) ++ fractionText (digits.drop (exponent.toNat + 1))
  else ['0'] ++ fractionText (List.replicate (-exponent - 1).toNat '0' ++ digits)

/-- `out << x`. -/
def floatText (bits : UInt32) : List Char :=
  signed (signBit bits)
    (if exponentBits bits = 255 then
      if mantissaBits bits = 0 then ['i', 'n', 'f'] else ['n', 'a', 'n']
    else if floatSize bits = 0 then ['0']
    else generalText (printedSize bits))

/-! ## `operator>>` -/

/-- The digits behind the point, if there is one. -/
def readPoint : List Char → List Char × List Char
  | [] => ([], [])
  | c :: rest => if c = '.' then readDigits rest else ([], c :: rest)

/-- `in >> x`: what the stream collects has to be a number as `strtof` reads it, all of it. -/
def readFloat (text : List Char) : Option (UInt32 × List Char) :=
  let sign := readSign (text.dropWhile isSpace)
  let whole := readDigits sign.2
  let fraction := readPoint whole.2
  if whole.1 ++ fraction.1 = [] then none
  else
    (readExponent fraction.2).bind fun exponent =>
      (toFloat sign.1 (decimal false whole.1 fraction.1 exponent.1)).map fun bits =>
        (bits, exponent.2)

/-! ## The file -/

/-- `out << anchor.x << " " << anchor.y << " " << anchor.z << "\n"`. -/
def stateFileText (anchor : Vec3) : List Char :=
  floatText anchor.x ++ ' ' :: (floatText anchor.y ++ ' ' :: (floatText anchor.z ++ ['\n']))

/-- `in >> v.x >> v.y >> v.z`. -/
def readStateFile (text : List Char) : Option Vec3 :=
  (readFloat text).bind fun x =>
    (readFloat x.2).bind fun y =>
      (readFloat y.2).map fun z => { x := x.1, y := y.1, z := z.1 }

example : stateFileText { x := 0x44BB9000, y := 0x451C4400, z := 0xC2280000 } =
    "1500.5 2500.25 -42\n".toList := by
  decide +kernel

/-! ## What is read for what is printed -/

section Sizes

variable {bits : UInt32}

theorem unitRatio_pos : 0 < unitRatio := by
  unfold unitRatio
  positivity

/-- The size that is read back for the digits that are printed. -/
def readSize (bits : UInt32) : ℕ :=
  sixDigits.back significand unitRatio (floatSize bits)

theorem readSize_eq (bits : UInt32) :
    readSize bits = significand.round (printedSize bits * unitRatio) :=
  rfl

/-- The largest float is printed as 3.40282e+38, which is less than it. -/
theorem printedSize_le (h : FloatFinite bits) : printedSize bits ≤ 340282 * 10 ^ 83 := by
  by_contra hgt
  have hnonneg := Format.unscaled_nonneg unitRatio_pos (floatSize bits)
  have hnear := Format.round_le (F := sixDigits) hnonneg (n := 340282 * 10 ^ 83)
    ⟨340282, 83, by decide, rfl⟩
  have hmultiple : ∃ m, printedSize bits = m * 10 ^ 83 := by
    refine (Format.representable_round (F := sixDigits) hnonneg).multiple (k := 83) ?_
    calc 10 ^ (83 + 5) ≤ 340282 * 10 ^ 83 := by norm_num
      _ ≤ printedSize bits := (not_le.1 hgt).le
  rcases hmultiple with ⟨m, hm⟩
  have hnext : (340283 : ℚ) * 10 ^ 83 ≤ printedSize bits := by
    rw [hm] at hgt ⊢
    have hlt : 340282 < m := Nat.lt_of_mul_lt_mul_right (not_le.1 hgt)
    exact_mod_cast Nat.mul_le_mul_right (10 ^ 83) hlt
  have hlargest : (floatSize bits : ℚ) / unitRatio ≤ largestSize / unitRatio :=
    div_le_div_of_nonneg_right (by exact_mod_cast floatSize_le h) unitRatio_pos.le
  have hvalue : (largestSize : ℚ) / unitRatio < 34028235 * 10 ^ 81 := by
    norm_num [largestSize, unitRatio]
  change |(printedSize bits : ℚ) - _| ≤ _ at hnear
  generalize (floatSize bits : ℚ) / unitRatio = y at hnear hlargest
  generalize (printedSize bits : ℚ) = d at hnear hnext
  have hcast : ((340282 * 10 ^ 83 : ℕ) : ℚ) = 340282 * 10 ^ 83 := by norm_num
  rw [hcast] at hnear
  -- The next number of six digits is farther from every float than this one.
  rcases abs_cases (d - y) with ⟨hd, -⟩ | ⟨hd, hbelow⟩
  · rcases abs_cases ((340282 : ℚ) * 10 ^ 83 - y) with ⟨hg, -⟩ | ⟨hg, -⟩ <;>
      rw [hd, hg] at hnear <;> linarith
  · linarith

theorem readSize_le (h : FloatFinite bits) : readSize bits ≤ largestSize := by
  have hprinted : (printedSize bits : ℚ) * unitRatio ≤ largestSize := by
    have hle : (printedSize bits : ℚ) ≤ 340282 * 10 ^ 83 := by exact_mod_cast printedSize_le h
    calc (printedSize bits : ℚ) * unitRatio ≤ 340282 * 10 ^ 83 * unitRatio :=
          mul_le_mul_of_nonneg_right hle unitRatio_pos.le
      _ ≤ largestSize := by norm_num [largestSize, unitRatio]
  have hnonneg : 0 ≤ (printedSize bits : ℚ) * unitRatio :=
    mul_nonneg (Nat.cast_nonneg _) unitRatio_pos.le
  have hnear := Format.round_le (F := significand) hnonneg (n := largestSize)
    ⟨2 ^ 24 - 1, 253, by decide, rfl⟩
  rw [abs_of_nonneg (sub_nonneg.2 hprinted)] at hnear
  have hround := (abs_le.1 hnear).2
  rw [readSize_eq]
  have hcast : (significand.round (printedSize bits * unitRatio) : ℚ) ≤ largestSize := by
    linarith
  exact_mod_cast hcast

theorem readSize_lt (h : FloatFinite bits) : readSize bits < 2 ^ 277 :=
  (readSize_le h).trans_lt (calc
    largestSize < 2 ^ 24 * 2 ^ 253 := Nat.mul_lt_mul_of_pos_right (by decide) (Nat.two_pow_pos _)
    _ = 2 ^ 277 := by rw [← pow_add])

/-- Within one part in a hundred thousand. -/
theorem readSize_error (bits : UInt32) :
    |(readSize bits : ℚ) - floatSize bits| * 10 ^ 5 ≤ floatSize bits := by
  have hrep := representable_floatSize bits
  have hnonneg := Format.unscaled_nonneg unitRatio_pos (floatSize bits)
  by_cases hk : sixDigits.exponent ((floatSize bits : ℚ) / unitRatio) = 0
  · -- The smallest floats are farther apart than the digits.
    have hexact : readSize bits = floatSize bits := by
      refine Format.back_eq unitRatio_pos hrep ?_
      rw [hk, pow_zero]
      norm_num [unitRatio]
    rw [hexact, sub_self, abs_zero, zero_mul]
    exact Nat.cast_nonneg _
  · have herror := Format.back_error (F := sixDigits) unitRatio_pos hrep
    have hlead := Format.pow_le_of_exponent (F := sixDigits) hnonneg hk
    rw [← sub_div, abs_div, abs_of_pos unitRatio_pos] at herror
    have hscaled : |(readSize bits : ℚ) - floatSize bits| / unitRatio * 10 ^ 5 ≤
        (floatSize bits : ℚ) / unitRatio := by
      calc |(readSize bits : ℚ) - floatSize bits| / unitRatio * 10 ^ 5
          ≤ (10 : ℚ) ^ sixDigits.exponent ((floatSize bits : ℚ) / unitRatio) * 10 ^ 5 :=
            mul_le_mul_of_nonneg_right herror (by norm_num)
        _ = (10 : ℚ) ^ (sixDigits.exponent ((floatSize bits : ℚ) / unitRatio) + 5) :=
            (pow_add _ _ _).symm
        _ ≤ (floatSize bits : ℚ) / unitRatio := hlead
    rw [div_mul_eq_mul_div] at hscaled
    exact (div_le_div_iff_of_pos_right unitRatio_pos).1 hscaled

/-- Just below a power of ten the float nearest to it is printed as the power. -/
theorem power_read_closely : ∀ j < 83, 5 ≤ j →
    (significand.round (10 ^ (j + 1 + 5) * unitRatio) : ℚ) / unitRatio < 10 ^ (j + 1 + 5) →
      2 * ((10 : ℚ) ^ (j + 1 + 5) - significand.round (10 ^ (j + 1 + 5) * unitRatio) / unitRatio) <
        10 ^ j := by
  decide +kernel

/-- What is read is printed as what it was read from. -/
theorem printed_readSize (h : FloatFinite bits) :
    sixDigits.round (readSize bits / unitRatio) = printedSize bits := by
  refine Format.round_back unitRatio_pos (representable_floatSize bits) ?_
  intro j hpower hunit
  have hle : (10 : ℕ) ^ (j + 1 + 5) < 10 ^ 89 := by
    calc (10 : ℕ) ^ (j + 1 + 5) = printedSize bits := hpower.symm
      _ ≤ 340282 * 10 ^ 83 := printedSize_le h
      _ < 10 ^ 89 := by norm_num
  have hj : j < 83 := by
    have hexp := (Nat.pow_lt_pow_iff_right (by decide : 1 < 10)).1 hle
    omega
  have hfive : 5 ≤ j := by
    by_contra hlt
    have hsmall : (10 : ℚ) ^ (j + 1) ≤ 10 ^ 5 := pow_le_pow_right₀ (by norm_num) (by omega)
    have hratio : (10 : ℚ) ^ 5 < 1 / unitRatio := by norm_num [unitRatio]
    exact absurd (hunit.trans hsmall) (not_le.2 hratio)
  exact power_read_closely j hj hfive

end Sizes

/-! ## Texts and numbers -/

section Texts

variable {digits fraction behind : List Char} {negative : Bool}

/-- What stands behind a number in the file. -/
def Blank (behind : List Char) : Prop :=
  ∃ c rest, behind = c :: rest ∧ (c = ' ' ∨ c = '\n')

theorem Blank.not_digit (h : Blank behind) :
    behind.takeWhile Char.isDigit = [] ∧ behind.dropWhile Char.isDigit = behind := by
  rcases h with ⟨c, rest, rfl, rfl | rfl⟩ <;> exact ⟨rfl, rfl⟩

theorem Blank.readExponent (h : Blank behind) : Json.readExponent behind = some (0, behind) := by
  rcases h with ⟨c, rest, rfl, rfl | rfl⟩ <;> rfl

/-- The number a list of digits stands for grows by a digit behind it. -/
theorem ofDigitChars_snoc_zero (digits : List Char) :
    Nat.ofDigitChars 10 (digits ++ ['0']) 0 = Nat.ofDigitChars 10 digits 0 * 10 := by
  rw [Nat.ofDigitChars_append]
  simp [Nat.ofDigitChars, Nat.mul_comm]

/-- Zeros at the end of a fraction do not count. -/
theorem decimal_stripped (whole fraction : List Char) (exponent : ℤ) :
    decimal false whole (fraction.rdropWhile fun c => c == '0') exponent =
      decimal false whole fraction exponent := by
  induction fraction using List.reverseRecOn with
  | nil => rfl
  | append_singleton fraction c ih =>
    by_cases hzero : c = '0'
    · rw [hzero, List.rdropWhile_concat_pos _ _ _ (by rfl), ih]
      simp only [decimal, Bool.false_eq_true, if_false, ← List.append_assoc,
        ofDigitChars_snoc_zero, List.length_append, List.length_singleton, pow_succ]
      push_cast
      congr 1
      field_simp
    · rw [List.rdropWhile_concat_neg _ _ _ (by simpa using hzero)]

theorem isDigit_stripped (h : ∀ c ∈ fraction, c.isDigit = true) :
    ∀ c ∈ fraction.rdropWhile fun c => c == '0', c.isDigit = true := by
  intro c hc
  exact h c ((List.rdropWhile_prefix _ fraction).subset hc)

/-- A text that does not go on with a digit or a point. -/
structure EndsFraction (tail : List Char) : Prop where
  digits : tail.takeWhile Char.isDigit = [] ∧ tail.dropWhile Char.isDigit = tail
  point : tail.head? ≠ some '.'

theorem Blank.endsFraction (h : Blank behind) : EndsFraction behind where
  digits := h.not_digit
  point := by
    rcases h with ⟨c, rest, rfl, rfl | rfl⟩ <;> simp

theorem endsFraction_exponentText (exponent : ℤ) (behind : List Char) :
    EndsFraction (exponentText exponent ++ behind) where
  digits := ⟨rfl, rfl⟩
  point := fun heq => absurd (Option.some.inj heq) (by decide)

theorem readExponent_exponentText (exponent : ℤ) (h : Blank behind) :
    Json.readExponent (exponentText exponent ++ behind) = some (exponent, behind) := by
  have hdigits : ∀ c ∈ (if exponent.natAbs < 10 then ['0'] else []) ++
      Nat.toDigits 10 exponent.natAbs, c.isDigit = true := by
    intro c hc
    rcases List.mem_append.1 hc with hc | hc
    · split at hc
      · rw [List.mem_singleton.1 hc]
        rfl
      · cases hc
    · exact (isWhole_toDigits _).digits c hc
  have hread := readDigits_append hdigits h.not_digit
  have hne : (if exponent.natAbs < 10 then ['0'] else []) ++
      Nat.toDigits 10 exponent.natAbs ≠ [] := by simp
  have hvalue : Nat.ofDigitChars 10 ((if exponent.natAbs < 10 then ['0'] else []) ++
      Nat.toDigits 10 exponent.natAbs) 0 = exponent.natAbs := by
    rw [Nat.ofDigitChars_append]
    split <;> simp [Nat.ofDigitChars_ten_toDigits, Nat.ofDigitChars_cons]
  rw [exponentText]
  generalize (if exponent.natAbs < 10 then ['0'] else []) ++ Nat.toDigits 10 exponent.natAbs =
    digits at hread hne hvalue
  by_cases hneg : exponent < 0
  · have habs : -|exponent| = exponent := by rw [abs_of_neg hneg, neg_neg]
    simp [Json.readExponent, readSign, readMinus, readDigits1, hneg, hread, hne, hvalue, habs]
  · have habs : (exponent.natAbs : ℤ) = exponent := by omega
    simp [Json.readExponent, readSign, readDigits1, hneg, hread, hne, hvalue, habs]

theorem readPoint_fractionText (hfraction : ∀ c ∈ fraction, c.isDigit = true)
    {tail : List Char} (h : EndsFraction tail) :
    readPoint (fractionText fraction ++ tail) =
      (fraction.rdropWhile fun c => c == '0', tail) := by
  rw [fractionText, point]
  split
  · rename_i hnone
    rw [hnone, List.nil_append]
    cases tail with
    | nil => rfl
    | cons c rest =>
      have hc : ¬ c = '.' := fun heq => h.point (congrArg some heq)
      rw [readPoint, if_neg hc]
  · rw [List.cons_append, readPoint, if_pos rfl]
    exact readDigits_append (isDigit_stripped hfraction) h.digits

theorem fractionText_not_digit (fraction : List Char) {tail : List Char} (h : EndsFraction tail) :
    (fractionText fraction ++ tail).takeWhile Char.isDigit = [] ∧
      (fractionText fraction ++ tail).dropWhile Char.isDigit = fractionText fraction ++ tail := by
  rw [fractionText, point]
  split
  · exact h.digits
  · exact ⟨rfl, rfl⟩

/-- A number in any of the notations is read as what it says. -/
theorem readFloat_number (negative : Bool) {whole tail : List Char} {exponent : ℤ}
    (hne : whole ≠ []) (hwhole : ∀ c ∈ whole, c.isDigit = true)
    (hfraction : ∀ c ∈ fraction, c.isDigit = true) (htail : EndsFraction tail)
    (hexponent : Json.readExponent tail = some (exponent, behind)) :
    readFloat (signed negative (whole ++ (fractionText fraction ++ tail))) =
      (toFloat negative (decimal false whole fraction exponent)).map fun bits =>
        (bits, behind) := by
  rcases List.exists_cons_of_ne_nil hne with ⟨c, rest, rfl⟩
  have hdigit := hwhole c List.mem_cons_self
  have hother : ∀ d : Char, d.isDigit = false → c ≠ d := by
    rintro d hd rfl
    rw [hd] at hdigit
    cases hdigit
  have hspace : isSpace c = false := by
    simp [isSpace, hother ' ' (by decide), hother '\t' (by decide), hother '\n' (by decide),
      hother (Char.ofNat 11) (by decide), hother (Char.ofNat 12) (by decide),
      hother '\r' (by decide)]
  have hsign : readSign ((signed negative (c :: rest ++ (fractionText fraction ++ tail))).dropWhile
      isSpace) = (negative, c :: rest ++ (fractionText fraction ++ tail)) := by
    cases negative with
    | true => rfl
    | false =>
      simp [signed, hspace, readSign, readMinus, hother '+' (by decide), hother '-' (by decide)]
  have hread := readDigits_append hwhole (fractionText_not_digit fraction htail)
  rw [readFloat]
  simp only [hsign, hread, readPoint_fractionText hfraction htail, hexponent, Option.bind_some,
    decimal_stripped]
  rw [if_neg (by simp)]

theorem signed_append (negative : Bool) (text more : List Char) :
    signed negative text ++ more = signed negative (text ++ more) := by
  cases negative <;> rfl

/-- Six digits with the point behind the digit at `i`. -/
theorem decimal_pointed {digits : List Char} (hlength : digits.length = 6) {i : ℕ} (hi : i ≤ 5)
    (exponent : ℤ) :
    decimal false (digits.take (i + 1)) (digits.drop (i + 1)) exponent =
      Nat.ofDigitChars 10 digits 0 * 10 ^ (exponent + i - 5) := by
  have hdrop : (digits.drop (i + 1)).length = 5 - i := by
    rw [List.length_drop, hlength]
    omega
  have hshift : (10 : ℚ) ^ (exponent + i - 5) = 10 ^ exponent / 10 ^ (5 - i) := by
    have hcast : exponent + i - 5 = exponent - ((5 - i : ℕ) : ℤ) := by omega
    rw [hcast, zpow_sub₀ (by norm_num), zpow_natCast]
  simp only [decimal, Bool.false_eq_true, if_false, List.take_append_drop, hdrop, hshift]
  ring

/-- In each of its notations a number of six digits is read as its value. -/
theorem readFloat_generalText (negative : Bool) {size : ℕ}
    (hsize : sixDigits.Representable size) (hsix : 10 ^ 5 ≤ size) (h : Blank behind) :
    readFloat (signed negative (generalText size) ++ behind) =
      (toFloat negative (size / 10 ^ 50)).map fun bits => (bits, behind) := by
  rcases hsize.split with ⟨hlt, hsplit, hnormal⟩
  change size / 10 ^ sixDigits.exponent size < 10 ^ 6 at hlt
  change size = size / 10 ^ sixDigits.exponent size * 10 ^ sixDigits.exponent size at hsplit
  change _ → 10 ^ 5 ≤ size / 10 ^ sixDigits.exponent size at hnormal
  rw [signed_append, generalText]
  generalize sixDigits.exponent size = k at *
  generalize hm : size / 10 ^ k = m at *
  have hfive : 10 ^ 5 ≤ m := by
    by_cases hk : k = 0
    · rw [hk] at hsplit
      omega
    · exact hnormal hk
  have hlength : (Nat.toDigits 10 m).length = 6 := by
    have hle := (Nat.length_toDigits_le_iff (k := 6) (by decide) (by decide)).2 hlt
    have hge : ¬ (Nat.toDigits 10 m).length ≤ 5 :=
      (Nat.length_toDigits_le_iff (by decide) (by decide)).not.2 (not_lt.2 hfive)
    omega
  have hdigits := (isWhole_toDigits m).digits
  have hvalue : Nat.ofDigitChars 10 (Nat.toDigits 10 m) 0 = m := Nat.ofDigitChars_ten_toDigits
  have hscale : ∀ e : ℤ, e = (k : ℤ) - 50 → (m : ℚ) * 10 ^ e = (size : ℚ) / 10 ^ 50 := by
    rintro e rfl
    rw [zpow_sub₀ (by norm_num), zpow_natCast, hsplit]
    push_cast
    rw [mul_div_assoc]
    rfl
  generalize Nat.toDigits 10 m = digits at hlength hdigits hvalue
  have hparts : ∀ i, digits.take (i + 1) ≠ [] ∧ (∀ c ∈ digits.take (i + 1), c.isDigit = true) ∧
      ∀ c ∈ digits.drop (i + 1), c.isDigit = true := by
    intro i
    refine ⟨?_, fun c hc => hdigits c (List.mem_of_mem_take hc),
      fun c hc => hdigits c (List.mem_of_mem_drop hc)⟩
    intro hnil
    have hzero := congrArg List.length hnil
    rw [List.length_take, hlength] at hzero
    simp at hzero
  split
  · -- Scientific notation.
    rcases hparts 0 with ⟨hne, hwhole, hfraction⟩
    rw [List.append_assoc, List.append_assoc, readFloat_number negative hne hwhole hfraction
      (endsFraction_exponentText _ _) (readExponent_exponentText _ h),
      decimal_pointed hlength (by omega), hvalue, hscale _ (by push_cast; ring)]
  · rename_i hfixed
    rcases not_or.1 hfixed with ⟨hlow, hhigh⟩
    split
    · -- The point is among the digits.
      rename_i hpos
      have hi : ((k : ℤ) + 5 - 50).toNat ≤ 5 := by omega
      rcases hparts ((k : ℤ) + 5 - 50).toNat with ⟨hne, hwhole, hfraction⟩
      rw [List.append_assoc, readFloat_number negative hne hwhole hfraction h.endsFraction
        h.readExponent, decimal_pointed hlength hi, hvalue, hscale _ (by omega)]
    · -- Zeros stand between the point and the digits.
      rename_i hneg
      have hfraction : ∀ c ∈ List.replicate (-((k : ℤ) + 5 - 50) - 1).toNat '0' ++ digits,
          c.isDigit = true := by
        intro c hc
        rcases List.mem_append.1 hc with hc | hc
        · rw [List.eq_of_mem_replicate hc]
          rfl
        · exact hdigits c hc
      rw [List.append_assoc, readFloat_number negative (by simp) (by simp) hfraction
        h.endsFraction h.readExponent]
      have hsmall : decimal false ['0']
          (List.replicate (-((k : ℤ) + 5 - 50) - 1).toNat '0' ++ digits) 0 =
          (size : ℚ) / 10 ^ 50 := by
        have hexp : ((-((k : ℤ) + 5 - 50) - 1).toNat + 6 : ℕ) = -((k : ℤ) - 50) := by omega
        have hzeros : Nat.ofDigitChars 10 (['0'] ++
            (List.replicate (-((k : ℤ) + 5 - 50) - 1).toNat '0' ++ digits)) 0 = m := by
          rw [Nat.ofDigitChars_append, Nat.ofDigitChars_append, Nat.ofDigitChars_replicate_zero]
          simpa [Nat.ofDigitChars_cons] using hvalue
        rw [← hscale _ rfl]
        simp only [decimal, Bool.false_eq_true, if_false, hzeros, List.length_append,
          List.length_replicate, hlength, zpow_zero, mul_one]
        rw [← zpow_natCast, hexp, zpow_neg, div_inv_eq_mul]
      rw [hsmall]

end Texts

/-! ## One float there and back -/

section Coordinate

variable {bits : UInt32} {behind : List Char}

/-- What a float is restored as. -/
def restoredFloat (bits : UInt32) : UInt32 :=
  floatBits (signBit bits) (readSize bits)

theorem restoredFloat_spec (h : FloatFinite bits) :
    signBit (restoredFloat bits) = signBit bits ∧ FloatFinite (restoredFloat bits) ∧
      floatSize (restoredFloat bits) = readSize bits :=
  floatBits_spec (Format.representable_round (Format.kept_nonneg unitRatio_pos)) (readSize_lt h) _

theorem readSize_of_zero (h : floatSize bits = 0) : readSize bits = 0 := by
  have hprinted : printedSize bits = 0 := by
    rw [printedSize, h, Nat.cast_zero, zero_div]
    exact Format.round_zero sixDigits
  rw [readSize_eq, hprinted, Nat.cast_zero, zero_mul]
  exact Format.round_zero significand

/-- The smallest float has six digits already. -/
theorem pow_le_printedSize (h : floatSize bits ≠ 0) : 10 ^ 5 ≤ printedSize bits := by
  have hone : (1 : ℚ) ≤ floatSize bits := by exact_mod_cast Nat.one_le_iff_ne_zero.2 h
  have hunit : (10 : ℚ) ^ 5 ≤ (floatSize bits : ℚ) / unitRatio := by
    calc (10 : ℚ) ^ 5 ≤ 1 / unitRatio := by norm_num [unitRatio]
      _ ≤ (floatSize bits : ℚ) / unitRatio := div_le_div_of_nonneg_right hone unitRatio_pos.le
  have hnear := Format.round_le (F := sixDigits)
    (Format.unscaled_nonneg unitRatio_pos (floatSize bits)) (n := 10 ^ 5)
    ⟨1, 5, by decide, by decide⟩
  change |(printedSize bits : ℚ) - _| ≤ _ at hnear
  by_contra hlt
  have hbelow : (printedSize bits : ℚ) < 10 ^ 5 := by exact_mod_cast not_le.1 hlt
  have hcast : ((10 ^ 5 : ℕ) : ℚ) = 10 ^ 5 := by norm_num
  rw [hcast, abs_of_nonpos (sub_nonpos.2 hunit), abs_of_neg (by linarith)] at hnear
  linarith

theorem toFloat_printed (h : FloatFinite bits) :
    toFloat (signBit bits) (printedSize bits / 10 ^ 50) = some (restoredFloat bits) := by
  have hsize : (printedSize bits : ℚ) / 10 ^ 50 * 2 ^ 149 = printedSize bits * unitRatio := by
    rw [unitRatio]
    ring
  rw [toFloat, hsize, ← readSize_eq]
  exact if_neg (Nat.not_le.2 (readSize_lt h))

/-- A finite float is read back, whatever stands behind it in the file. -/
theorem readFloat_floatText (h : FloatFinite bits) (hblank : Blank behind) :
    readFloat (floatText bits ++ behind) = some (restoredFloat bits, behind) := by
  rw [floatText, if_neg h]
  by_cases hzero : floatSize bits = 0
  · have hread : readFloat (signed (signBit bits) (['0'] ++ (fractionText [] ++ behind))) = _ :=
      readFloat_number (signBit bits) (by simp) (by simp) (by simp) hblank.endsFraction
        hblank.readExponent
    have hnothing :
        toFloat (signBit bits) (decimal false ['0'] [] 0) = some (restoredFloat bits) := by
      have hvalue : decimal false ['0'] [] 0 = (printedSize bits : ℚ) / 10 ^ 50 := by
        rw [printedSize, hzero, Nat.cast_zero, zero_div, Format.round_zero]
        simp [decimal, Nat.ofDigitChars_cons]
      rw [hvalue, toFloat_printed h]
    rw [if_pos hzero, signed_append]
    exact hread.trans (by rw [hnothing]; rfl)
  · have hsix : sixDigits.Representable (printedSize bits) :=
      Format.representable_round (Format.unscaled_nonneg unitRatio_pos _)
    rw [if_neg hzero, readFloat_generalText _ hsix (pow_le_printedSize hzero) hblank,
      toFloat_printed h]
    rfl

/-- The words for the other floats are not read. -/
theorem readFloat_of_not_finite (h : ¬ FloatFinite bits) (behind : List Char) :
    readFloat (floatText bits ++ behind) = none := by
  rw [floatText, if_pos (not_not.1 h)]
  cases signBit bits <;> by_cases hinfinite : mantissaBits bits = 0 <;>
    simp [hinfinite, signed, readFloat, isSpace, readSign, readMinus, readDigits, readPoint]

/-- What the restored float is to the one that was written. -/
structure Restores (bits read : UInt32) : Prop where
  finite : FloatFinite read
  /-- Within one part in a hundred thousand. -/
  near : |floatValue read - floatValue bits| * 10 ^ 5 ≤ |floatValue bits|
  /-- It is written as the float it was read for. -/
  text : floatText read = floatText bits

theorem restores_restoredFloat (h : FloatFinite bits) : Restores bits (restoredFloat bits) := by
  rcases restoredFloat_spec h with ⟨hsign, hfinite, hsize⟩
  refine ⟨hfinite, ?_, ?_⟩
  · have hvalue : |floatValue (restoredFloat bits) - floatValue bits| =
        |(readSize bits : ℚ) - floatSize bits| / 2 ^ 149 := by
      rw [floatValue, floatValue, hsign, hsize, ← sub_div, ← mul_sub, abs_div, abs_mul]
      cases signBit bits <;> simp
    rw [hvalue, abs_floatValue, div_mul_eq_mul_div]
    exact div_le_div_of_nonneg_right (readSize_error bits) (by positivity)
  · have hprinted : printedSize (restoredFloat bits) = printedSize bits := by
      rw [printedSize, hsize]
      exact printed_readSize h
    have hzero : floatSize (restoredFloat bits) = 0 ↔ floatSize bits = 0 := by
      rw [hsize]
      constructor
      · intro hread
        have herror := readSize_error bits
        rw [hread, Nat.cast_zero, zero_sub, abs_neg, abs_of_nonneg (Nat.cast_nonneg _)] at herror
        have hnonneg : (0 : ℚ) ≤ floatSize bits := Nat.cast_nonneg _
        have hnothing : (floatSize bits : ℚ) = 0 := by linarith
        exact_mod_cast hnothing
      · exact readSize_of_zero
    simp only [floatText, if_neg hfinite, if_neg h, hsign, hprinted, hzero]

end Coordinate

/-! ## The file there and back -/

theorem readFloat_space (text : List Char) : readFloat (' ' :: text) = readFloat text := by
  rfl

/-- What a position is restored as. -/
def restoredAnchor (v : Vec3) : Vec3 :=
  { x := restoredFloat v.x, y := restoredFloat v.y, z := restoredFloat v.z }

theorem readStateFile_text {v : Vec3} (h : PositionFinite v) :
    readStateFile (stateFileText v) = some (restoredAnchor v) := by
  have hspace : ∀ rest, Blank (' ' :: rest) := fun rest => ⟨' ', rest, rfl, Or.inl rfl⟩
  have hx := readFloat_floatText h.x (hspace (floatText v.y ++ ' ' :: (floatText v.z ++ ['\n'])))
  have hy := readFloat_floatText h.y (hspace (floatText v.z ++ ['\n']))
  have hz := readFloat_floatText h.z ⟨'\n', [], rfl, Or.inr rfl⟩
  simp only [readStateFile, stateFileText, hx, Option.bind_some, readFloat_space, hy, hz,
    Option.map_some, restoredAnchor]

theorem readStateFile_not_finite {v : Vec3} (h : ¬ PositionFinite v) :
    readStateFile (stateFileText v) = none := by
  have hspace : ∀ rest, Blank (' ' :: rest) := fun rest => ⟨' ', rest, rfl, Or.inl rfl⟩
  rw [readStateFile, stateFileText]
  by_cases hx : FloatFinite v.x
  · rw [readFloat_floatText hx (hspace _), Option.bind_some]
    simp only [readFloat_space]
    by_cases hy : FloatFinite v.y
    · rw [readFloat_floatText hy (hspace _), Option.bind_some]
      have hz : ¬ FloatFinite v.z := fun hz => h ⟨hx, hy, hz⟩
      simp only [readFloat_space, readFloat_of_not_finite hz, Option.map_none]
    · rw [readFloat_of_not_finite hy, Option.bind_none]
  · rw [readFloat_of_not_finite hx, Option.bind_none]

/-- What is restored is written as what it was restored from. -/
theorem stateFileText_restoredAnchor {v : Vec3} (h : PositionFinite v) :
    stateFileText (restoredAnchor v) = stateFileText v := by
  simp only [stateFileText, restoredAnchor, (restores_restoredFloat h.x).text,
    (restores_restoredFloat h.y).text, (restores_restoredFloat h.z).text]

/-- A finite position is read back from the file it was written to, within one part in a hundred
thousand, and what is read back gives the same file again.  Of a position with a coordinate that is
not finite nothing is read. -/
theorem state_file_round_trip (v : Vec3) :
    (PositionFinite v → ∃ w, readStateFile (stateFileText v) = some w ∧ Restores v.x w.x ∧
      Restores v.y w.y ∧ Restores v.z w.z ∧ stateFileText w = stateFileText v) ∧
    (¬ PositionFinite v → readStateFile (stateFileText v) = none) := by
  refine ⟨?_, readStateFile_not_finite⟩
  intro h
  exact ⟨_, readStateFile_text h, restores_restoredFloat h.x, restores_restoredFloat h.y,
    restores_restoredFloat h.z, stateFileText_restoredAnchor h⟩

end Server
end Crossover
