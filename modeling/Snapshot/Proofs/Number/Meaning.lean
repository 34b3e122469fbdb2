import Mathlib.Algebra.Order.Field.Rat
import Mathlib.Tactic.FieldSimp
import Mathlib.Tactic.Linarith
import Mathlib.Tactic.NormNum
import Mathlib.Tactic.Ring
import Snapshot.Number.Binary

/-!
# The numbers that patterns stand for

A floating-point pattern has three fields, a sign, an exponent and a fraction.
`FloatFormat.meaning` reads the number off them as IEEE 754 defines it, as a
rational number: `(1 + fraction) * 2 ^ (exponent - bias)`, except that the least
exponent leaves out the leading one, and the greatest one is that of infinities
and of what is not a number.

The library counts units of `2 ^ (-1074)` in place of rational numbers.
`FloatFormat.meaning_eq` says that both come to the same, in every layout whose
units agree with its bias (`FloatFormat.Standard`).  Single and double precision
are such layouts.
-/

namespace Snapshot

/-- What a pattern stands for. -/
inductive Meaning where
  | notANumber
  | infinite (negative : Bool)
  /-- A number.  Zero has a sign, too. -/
  | number (negative : Bool) (value : ℚ)

/-- A value with a sign put to it. -/
def signed (negative : Bool) (value : ℚ) : ℚ := if negative then -value else value

@[simp] theorem signed_false (value : ℚ) : signed false value = value := rfl

@[simp] theorem signed_true (value : ℚ) : signed true value = -value := rfl

@[simp] theorem abs_signed (negative : Bool) (value : ℚ) : |signed negative value| = |value| := by
  cases negative <;> simp

namespace FloatFormat

variable (format : FloatFormat)

/-- The exponent field of one. -/
def bias : ℕ := 2 ^ (format.exponentBits - 1) - 1

/-- What a pattern stands for, field by field. -/
def meaning (pattern : ℕ) : Meaning :=
  let negative : Bool := pattern / 2 ^ (format.exponentBits + format.fractionBits) % 2 = 1
  let exponent := pattern / 2 ^ format.fractionBits % 2 ^ format.exponentBits
  let fraction : ℚ := (pattern % 2 ^ format.fractionBits : ℕ) / 2 ^ format.fractionBits
  if exponent = 2 ^ format.exponentBits - 1 then
    if fraction = 0 then .infinite negative else .notANumber
  else if exponent = 0 then
    .number negative (signed negative (fraction * 2 ^ (1 - format.bias : ℤ)))
  else
    .number negative (signed negative ((1 + fraction) * 2 ^ (exponent - format.bias : ℤ)))

/-- A layout whose smallest positive value is as many units as its bias makes it. -/
structure Standard : Prop where
  fraction_pos : 0 < format.fractionBits
  exponent_gt_one : 1 < format.exponentBits
  units : format.quantum + format.bias + format.fractionBits = 1075

theorem binary32_standard : binary32.Standard := ⟨by decide, by decide, by decide⟩

theorem binary64_standard : binary64.Standard := ⟨by decide, by decide, by decide⟩

end FloatFormat

/-! ## Units -/

/-- One is two to this power of units. -/
def unitExponent : ℕ := 1074

theorem unitsPerOne_eq : unitsPerOne = 2 ^ unitExponent := by
  unfold unitsPerOne unitExponent
  -- Without its numeral the power is not evaluated.
  generalize 1074 = exponent
  rfl

theorem unitsPerOne_pos : 0 < unitsPerOne := by
  rw [unitsPerOne_eq]
  exact Nat.two_pow_pos unitExponent

/-- A number of units as the number that it is. -/
def ofUnits (units : ℕ) : ℚ := units / unitsPerOne

theorem ofUnits_nonneg (units : ℕ) : 0 ≤ ofUnits units :=
  div_nonneg (Nat.cast_nonneg units) (Nat.cast_nonneg unitsPerOne)

theorem ofUnits_mul_two_pow (count exponent : ℕ) :
    ofUnits (count * 2 ^ exponent) = count * 2 ^ (exponent - unitExponent : ℤ) := by
  rw [ofUnits, unitsPerOne_eq, zpow_sub₀ two_ne_zero, zpow_natCast, zpow_natCast]
  push_cast
  rw [mul_div_assoc]

/-- What a value in units stands for. -/
def FloatValue.meaning : FloatValue → Meaning
  | notANumber => .notANumber
  | infinite negative => .infinite negative
  | finite negative units => .number negative (signed negative (ofUnits units))

namespace FloatFormat

variable {format : FloatFormat}

theorem binade_eq : format.binade = 2 ^ format.fractionBits := rfl

theorem binade_pos : 0 < format.binade := Nat.two_pow_pos format.fractionBits

theorem topExponent_eq : format.topExponent = 2 ^ format.exponentBits - 1 := rfl

theorem signBit_true : format.signBit true = 2 ^ format.exponentBits * format.binade :=
  Nat.pow_add 2 format.exponentBits format.fractionBits

/-- The units of a pattern are what its exponent and its fraction make of it. -/
theorem Standard.ofUnits_unitsOf (h : format.Standard) (unsigned : ℕ) :
    ofUnits (format.unitsOf unsigned) =
      if unsigned / format.binade = 0 then
        ((unsigned % format.binade : ℕ) : ℚ) / 2 ^ format.fractionBits *
          2 ^ (1 - format.bias : ℤ)
      else
        (1 + ((unsigned % format.binade : ℕ) : ℚ) / 2 ^ format.fractionBits) *
          2 ^ ((unsigned / format.binade : ℕ) - format.bias : ℤ) := by
  have hunits := h.units
  have hbinade : (2 : ℚ) ^ format.fractionBits ≠ 0 := by positivity
  unfold unitsOf
  cases hexponent : unsigned / format.binade with
  | zero =>
      have hscale : (format.quantum - unitExponent : ℤ) =
          1 - format.bias - format.fractionBits := by
        unfold unitExponent
        omega
      rw [if_pos rfl, Nat.pow_eq, ofUnits_mul_two_pow, hscale, zpow_sub₀ two_ne_zero, zpow_natCast]
      field_simp
  | succ exponent =>
      have hscale : ((format.quantum + exponent : ℕ) - unitExponent : ℤ) =
          ((exponent + 1 : ℕ) - format.bias : ℤ) - format.fractionBits := by
        unfold unitExponent
        omega
      rw [if_neg (Nat.succ_ne_zero exponent)]
      show ofUnits ((format.binade + unsigned % format.binade) *
        2 ^ (format.quantum + exponent)) = _
      rw [ofUnits_mul_two_pow, hscale,
        zpow_sub₀ two_ne_zero, zpow_natCast, Nat.cast_add, binade_eq, Nat.cast_pow, Nat.cast_ofNat]
      field_simp

/-- The exponent and the fraction are fields of the pattern without its sign. -/
theorem fields_without_sign (pattern : ℕ) :
    pattern % format.signBit true / format.binade =
        pattern / format.binade % 2 ^ format.exponentBits ∧
      pattern % format.signBit true % format.binade = pattern % format.binade := by
  constructor
  · rw [signBit_true, Nat.mul_comm, Nat.mod_mul_right_div_self]
  · exact Nat.mod_mod_of_dvd pattern (signBit_true ▸ Nat.dvd_mul_left _ _)

/-- **Reading the units off a pattern is reading it as IEEE 754 says.** -/
theorem meaning_eq (h : format.Standard) (pattern : ℕ) :
    format.meaning pattern = (format.decode pattern).meaning := by
  obtain ⟨hexponent, hfraction⟩ := format.fields_without_sign pattern
  have hsign : format.signBit true = 2 ^ (format.exponentBits + format.fractionBits) := rfl
  have hvalue := h.ofUnits_unitsOf (pattern % format.signBit true)
  have hfields := Nat.div_add_mod' (pattern % format.signBit true) format.binade
  rw [hexponent, hfraction] at hvalue hfields
  unfold meaning decode
  rw [← hsign, ← binade_eq, ← topExponent_eq]
  by_cases htop : pattern / format.binade % 2 ^ format.exponentBits = format.topExponent
  · -- The units do not count: all depends on the fraction.
    rw [htop] at hfields
    have hinfinity : pattern % format.signBit true = format.infinity + pattern % format.binade :=
      hfields.symm
    by_cases hzero : pattern % format.binade = 0
    · simp [htop, hinfinity, hzero, FloatValue.meaning]
    · simp [htop, hinfinity, hzero, FloatValue.meaning]
  · have hle : pattern / format.binade % 2 ^ format.exponentBits ≤ format.topExponent :=
      Nat.le_sub_one_of_lt (Nat.mod_lt _ (Nat.two_pow_pos _))
    have hfinite : pattern % format.signBit true < format.infinity := by
      rw [infinity, ← Nat.div_lt_iff_lt_mul format.binade_pos, hexponent]
      exact Nat.lt_of_le_of_ne hle htop
    simp only [htop, hfinite, if_true, if_false, FloatValue.meaning, hvalue]
    split_ifs <;> rfl

/-- What is not a number is known by its fields. -/
theorem Standard.meaning_eq_notANumber_iff (h : format.Standard) {pattern : ℕ} :
    format.meaning pattern = .notANumber ↔ format.decode pattern = .notANumber := by
  rw [meaning_eq h]
  cases format.decode pattern <;> simp [FloatValue.meaning]

end FloatFormat

end Snapshot
