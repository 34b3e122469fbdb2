import Mathlib.Data.Rat.Floor
import Snapshot.Proofs.Number.Rounding

/-!
# The nearest number and the whole part

`FloatFormat.IsRounded` says what rounding to a layout is, in terms of rational numbers alone: the
result stands for a number to which no other number of the layout is as near, or as near with an
even pattern here, and from half-way past the greatest number on it is infinity.  The sign stays in
every case, that of zero included.  `FloatFormat.Standard.encode_isRounded` is that encoding does
just this.

Numbers of the same sign are compared by their units (`FloatFormat.dist_unclamped`).  One of the
other sign is never nearer than zero, which is itself a number of the layout.

`Meaning.clamped` is the way to whole numbers, and `FloatValue.truncate` goes it.
-/

namespace Snapshot

/-! ## Numbers of units -/

theorem cast_unitsPerOne_pos : (0 : ℚ) < unitsPerOne := Nat.cast_pos.mpr unitsPerOne_pos

theorem abs_ofUnits_sub (units others : ℕ) :
    |ofUnits units - ofUnits others| = ofUnits (Nat.dist units others) := by
  have hdist : |(units : ℚ) - others| = Nat.dist units others := by
    rcases Nat.le_total units others with hle | hle
    · rw [Nat.dist_eq_sub_of_le hle, Nat.cast_sub hle, abs_sub_comm, abs_of_nonneg]
      exact sub_nonneg.mpr (Nat.cast_le.mpr hle)
    · rw [Nat.dist_eq_sub_of_le_right hle, Nat.cast_sub hle, abs_of_nonneg]
      exact sub_nonneg.mpr (Nat.cast_le.mpr hle)
  rw [ofUnits, ofUnits, ofUnits, ← sub_div, abs_div, hdist, abs_of_pos cast_unitsPerOne_pos]

theorem ofUnits_lt_ofUnits {units others : ℕ} :
    ofUnits units < ofUnits others ↔ units < others := by
  rw [ofUnits, ofUnits, div_lt_div_iff_of_pos_right cast_unitsPerOne_pos, Nat.cast_lt]

@[simp] theorem ofUnits_zero : ofUnits 0 = 0 := by
  rw [ofUnits, Nat.cast_zero, zero_div]

theorem ofUnits_mul_unitsPerOne (n : ℕ) : ofUnits (n * unitsPerOne) = n := by
  rw [ofUnits, Nat.cast_mul, mul_div_cancel_right₀ _ cast_unitsPerOne_pos.ne']

theorem ofUnits_injective : Function.Injective ofUnits := by
  intro units others heq
  exact Nat.cast_injective ((div_left_inj' cast_unitsPerOne_pos.ne').mp heq)

/-- Numbers of one sign are as far apart as their absolute values. -/
theorem abs_signed_sub (negative : Bool) (value other : ℚ) :
    |signed negative value - signed negative other| = |value - other| := by
  cases negative with
  | false => rfl
  | true => rw [signed_true, signed_true, neg_sub_neg, abs_sub_comm]

/-- Numbers of different signs are as far apart as their absolute values are together. -/
theorem abs_signed_sub_signed_not (negative : Bool) {value other : ℚ} (hvalue : 0 ≤ value)
    (hother : 0 ≤ other) : |signed negative value - signed (!negative) other| = value + other := by
  cases negative with
  | false =>
      rw [Bool.not_false, signed_false, signed_true, sub_neg_eq_add, abs_of_nonneg]
      exact add_nonneg hvalue hother
  | true =>
      rw [Bool.not_true, signed_true, signed_false, ← neg_add', abs_neg, abs_of_nonneg]
      exact add_nonneg hvalue hother

@[simp] theorem signed_zero (negative : Bool) : signed negative 0 = 0 := by
  cases negative <;> simp

namespace FloatFormat

variable (format : FloatFormat)

/-- Half-way from the greatest number of a layout to the power of two that would come next. -/
def overflow : ℚ := (2 - 1 / 2 ^ (format.fractionBits + 1)) * 2 ^ format.bias

/-- The pattern stands for the number nearest to an exact one, under its sign.  Where another
number is as near, the pattern is even. -/
def IsNearest (negative : Bool) (exact : ℚ) (pattern : ℕ) : Prop :=
  ∃ value, format.meaning pattern = .number negative value ∧
    ∀ other sign rival, format.meaning other = .number sign rival → rival ≠ value →
      |exact - value| < |exact - rival| ∨ |exact - value| = |exact - rival| ∧ pattern % 2 = 0

/-- The pattern stands for what is left of a meaning when it is rounded to the layout. -/
def IsRounded : Meaning → ℕ → Prop
  | .notANumber, pattern => format.meaning pattern = .notANumber
  | .infinite negative, pattern => format.meaning pattern = .infinite negative
  | .number negative exact, pattern =>
      if |exact| < format.overflow then format.IsNearest negative exact pattern
      else format.meaning pattern = .infinite negative

variable {format}

theorem Standard.ofUnits_lt_overflow_iff (h : format.Standard) (units : ℕ) :
    ofUnits units < format.overflow ↔ format.unclamped units < format.infinity := by
  have hbinade : (2 : ℚ) ^ format.fractionBits ≠ 0 := by positivity
  have hexponent : format.bias + unitExponent = format.topSpacing + format.fractionBits := by
    have := h.units
    have := h.topExponent_eq_bias
    have := h.two_le_topExponent
    unfold topSpacing unitExponent
    omega
  have hunits : 2 * (format.overflow * unitsPerOne) + 2 ^ format.topSpacing =
      2 * (2 * format.binade * 2 ^ format.topSpacing) := by
    rw [unitsPerOne_eq, Nat.cast_pow, Nat.cast_ofNat, overflow, mul_assoc _ _ (2 ^ unitExponent),
      ← pow_add, hexponent, pow_add, pow_succ, binade_eq, Nat.cast_pow, Nat.cast_ofNat]
    field_simp
    ring
  rw [ofUnits, div_lt_iff₀ cast_unitsPerOne_pos,
    unclamped_lt_infinity_iff units h.two_le_topExponent, ← Nat.cast_lt (α := ℚ)]
  push_cast
  constructor
  · intro hlt
    linarith
  · intro hlt
    linarith

theorem two_pow_bias_le_overflow : 2 ^ format.bias ≤ format.overflow := by
  have hhalf : (1 : ℚ) / 2 ^ (format.fractionBits + 1) ≤ 1 :=
    div_le_one_of_le₀ (one_le_pow₀ one_le_two) (by positivity)
  exact le_mul_of_one_le_left (by positivity) (by linarith)

/-- The number of a pattern without sign, under a sign. -/
def valueOf (format : FloatFormat) (negative : Bool) (unsigned : ℕ) : ℚ :=
  signed negative (ofUnits (format.unitsOf unsigned))

@[simp] theorem valueOf_zero (negative : Bool) : format.valueOf negative 0 = 0 := by
  simp [valueOf, unitsOf_of_lt format.binade_pos]

theorem Standard.meaning_signBit_add (h : format.Standard) (negative : Bool) {unsigned : ℕ}
    (hfinite : unsigned < format.infinity) :
    format.meaning (format.signBit negative + unsigned) =
      .number negative (format.valueOf negative unsigned) := by
  rw [meaning_eq h, decode_finite negative hfinite, FloatValue.meaning, valueOf]

/-- Each number of the layout is one of a pattern without sign, under its sign. -/
theorem Standard.exists_of_meaning_eq (h : format.Standard) {pattern : ℕ} {negative : Bool}
    {value : ℚ} (hmeaning : format.meaning pattern = .number negative value) :
    ∃ unsigned, value = format.valueOf negative unsigned := by
  rw [meaning_eq h] at hmeaning
  cases hdecode : format.decode pattern with
  | notANumber => simp [hdecode, FloatValue.meaning] at hmeaning
  | infinite negative => simp [hdecode, FloatValue.meaning] at hmeaning
  | finite sign units =>
      obtain ⟨unsigned, -, rfl⟩ := exists_of_decode_eq hdecode
      rw [hdecode, FloatValue.meaning] at hmeaning
      cases hmeaning
      exact ⟨unsigned, rfl⟩

theorem even_signBit (negative : Bool) (hfraction : 0 < format.fractionBits) :
    2 ∣ format.signBit negative := by
  cases negative with
  | false => exact Nat.dvd_zero 2
  | true => exact signBit_true ▸ Nat.dvd_mul_left_of_dvd (dvd_pow_self 2 hfraction.ne') _

section

variable (h : format.Standard) (negative : Bool) (units : ℕ)

include h

/-- Among the numbers of its sign the one found is nearest. -/
theorem Standard.nearest_of_same_sign {rival : ℕ}
    (hrival : format.valueOf negative rival ≠ format.valueOf negative (format.unclamped units)) :
    |signed negative (ofUnits units) - format.valueOf negative (format.unclamped units)| <
        |signed negative (ofUnits units) - format.valueOf negative rival| ∨
      |signed negative (ofUnits units) - format.valueOf negative (format.unclamped units)| =
          |signed negative (ofUnits units) - format.valueOf negative rival| ∧
        format.unclamped units % 2 = 0 := by
  simp only [valueOf, abs_signed_sub, abs_ofUnits_sub, ofUnits_lt_ofUnits, ofUnits_injective.eq_iff]
  exact dist_unclamped units h.fraction_pos fun heq =>
    hrival (congrArg (fun other => signed negative (ofUnits other)) heq)

theorem Standard.error_le :
    |signed negative (ofUnits units) - format.valueOf negative (format.unclamped units)| ≤
      ofUnits units := by
  have hzero : |signed negative (ofUnits units) - format.valueOf negative 0| = ofUnits units := by
    simp [abs_of_nonneg (ofUnits_nonneg units)]
  by_cases hsame : format.valueOf negative 0 = format.valueOf negative (format.unclamped units)
  · rw [← hsame, hzero]
  · rcases h.nearest_of_same_sign negative units hsame with hlt | ⟨heq, -⟩
    · exact hlt.le.trans_eq hzero
    · exact (heq.trans hzero).le

/-- A number of the other sign is beyond zero, to which the one found is not inferior. -/
theorem Standard.nearest_of_other_sign {rival : ℕ}
    (hrival : format.valueOf (!negative) rival ≠ format.valueOf negative (format.unclamped units)) :
    |signed negative (ofUnits units) - format.valueOf negative (format.unclamped units)| <
        |signed negative (ofUnits units) - format.valueOf (!negative) rival| ∨
      |signed negative (ofUnits units) - format.valueOf negative (format.unclamped units)| =
          |signed negative (ofUnits units) - format.valueOf (!negative) rival| ∧
        format.unclamped units % 2 = 0 := by
  rcases (ofUnits_nonneg (format.unitsOf rival)).eq_or_lt with hzero | hpos
  · have hvalue : format.valueOf (!negative) rival = format.valueOf negative 0 := by
      simp [valueOf, ← hzero, unitsOf_of_lt format.binade_pos]
    rw [hvalue] at hrival ⊢
    exact h.nearest_of_same_sign negative units hrival
  · left
    calc |signed negative (ofUnits units) - format.valueOf negative (format.unclamped units)|
        ≤ ofUnits units := h.error_le negative units
      _ < ofUnits units + ofUnits (format.unitsOf rival) := lt_add_of_pos_right _ hpos
      _ = |signed negative (ofUnits units) - format.valueOf (!negative) rival| :=
          (abs_signed_sub_signed_not negative (ofUnits_nonneg _) (ofUnits_nonneg _)).symm

end

/-- Short of infinity the pattern found is that of the nearest number. -/
theorem Standard.encode_isNearest (h : format.Standard) (negative : Bool) {units : ℕ}
    (hfinite : format.unclamped units < format.infinity) :
    format.IsNearest negative (signed negative (ofUnits units))
      (format.encode (.finite negative units)) := by
  have heven : (format.signBit negative + format.unclamped units) % 2 =
      format.unclamped units % 2 := by
    rw [Nat.add_mod, Nat.mod_eq_zero_of_dvd (even_signBit negative h.fraction_pos), Nat.zero_add,
      Nat.mod_mod]
  rw [encode, magnitude_eq, Nat.min_eq_right hfinite.le, IsNearest, heven]
  refine ⟨_, h.meaning_signBit_add negative hfinite, fun other sign value hother hne => ?_⟩
  obtain ⟨rival, rfl⟩ := h.exists_of_meaning_eq hother
  by_cases hsign : sign = negative
  · subst hsign
    exact h.nearest_of_same_sign sign units hne
  · obtain rfl : sign = !negative := Bool.eq_not.mpr hsign
    exact h.nearest_of_other_sign negative units hne

/-- **Encoding rounds.** -/
theorem Standard.encode_isRounded (h : format.Standard) (value : FloatValue) :
    format.IsRounded value.meaning (format.encode value) := by
  cases value with
  | notANumber =>
      rw [FloatValue.meaning, IsRounded, meaning_eq h, encode, h.decode_quiet, FloatValue.meaning]
  | infinite negative =>
      rw [FloatValue.meaning, IsRounded, meaning_eq h, encode, decode_infinite, FloatValue.meaning]
  | finite negative units =>
      rw [FloatValue.meaning, IsRounded, abs_signed, abs_of_nonneg (ofUnits_nonneg units)]
      split_ifs with hfinite
      · exact h.encode_isNearest negative ((h.ofUnits_lt_overflow_iff units).mp hfinite)
      · have hinfinity : format.infinity ≤ format.unclamped units :=
          Nat.le_of_not_lt fun hlt => hfinite ((h.ofUnits_lt_overflow_iff units).mpr hlt)
        rw [meaning_eq h, encode, magnitude_eq, Nat.min_eq_left hinfinity, decode_infinite,
          FloatValue.meaning]

end FloatFormat

/-! ## Whole numbers -/

/-- A number with its fraction dropped. -/
def towardZero (value : ℚ) : ℤ := if 0 ≤ value then ⌊value⌋ else ⌈value⌉

/-- The whole number of `0 … greatest` that is left of a meaning.  What is not a number counts as
zero, and an infinity as the end that it is beyond. -/
def Meaning.clamped (greatest : ℕ) : Meaning → ℤ
  | notANumber => 0
  | infinite negative => if negative then 0 else greatest
  | number _ value => max 0 (min (towardZero value) greatest)

theorem floor_ofUnits (units : ℕ) : ⌊ofUnits units⌋ = (units / unitsPerOne : ℕ) := by
  rw [ofUnits, Rat.floor_natCast_div_natCast, Int.natCast_div]

theorem towardZero_nonpos {value : ℚ} (hvalue : value ≤ 0) : towardZero value ≤ 0 := by
  unfold towardZero
  split_ifs
  · exact Int.floor_nonpos hvalue
  · exact Int.ceil_le.mpr (by exact_mod_cast hvalue)

theorem FloatValue.truncate_le (greatest : ℕ) (value : FloatValue) :
    value.truncate greatest ≤ greatest := by
  cases value with
  | notANumber => exact Nat.zero_le greatest
  | infinite negative => cases negative <;> simp [truncate]
  | finite negative units => cases negative <;> simp [truncate]

/-- Dropping the units that make no whole one is rounding toward zero. -/
theorem FloatValue.truncate_eq (greatest : ℕ) (value : FloatValue) :
    (value.truncate greatest : ℤ) = value.meaning.clamped greatest := by
  cases value with
  | notANumber => rfl
  | infinite negative => cases negative <;> rfl
  | finite negative units =>
      have hnonneg := ofUnits_nonneg units
      cases negative with
      | false =>
          have hfloor : towardZero (ofUnits units) = (units / unitsPerOne : ℕ) := by
            rw [towardZero, if_pos hnonneg, floor_ofUnits]
          show ((min greatest (units / unitsPerOne) : ℕ) : ℤ) =
            max 0 (min (towardZero (ofUnits units)) greatest)
          rw [hfloor, max_eq_right (le_min (Int.natCast_nonneg _) (Int.natCast_nonneg _)),
            Nat.cast_min, min_comm]
      | true =>
          have hceil := towardZero_nonpos (neg_nonpos.mpr hnonneg)
          exact (max_eq_left ((min_le_left _ _).trans hceil)).symm

end Snapshot
