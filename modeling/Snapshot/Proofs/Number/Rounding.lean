import Mathlib.Data.Nat.Dist
import Snapshot.Proofs.Number.Meaning

/-!
# Rounding a number of units

Patterns without sign go up in binades of equally spaced values, each with twice the spacing of the
one before (`FloatFormat.unitsOf_add`).  `FloatFormat.magnitude` divides a number of units by the
spacing around it and rounds the quotient, nearest and ties to even.  That a nearest multiple of
the spacing is a nearest value has one reason: a value that is no multiple of the spacing is below
the binade, and the power of two with which the binade begins is nearer
(`FloatFormat.dist_unclamped`).

Nothing here depends on the two layouts in use.  What a layout needs for a result is stated with
it; `FloatFormat.FitsIn` is what a wider one has to hold all the values of a narrower one.
-/

namespace Snapshot

/-! ## Quotients -/

section

variable {dividend divisor : ℕ}

theorem div_le_roundQuotient : dividend / divisor ≤ roundQuotient dividend divisor := by
  unfold roundQuotient
  grind

theorem roundQuotient_le_succ_div :
    roundQuotient dividend divisor ≤ dividend / divisor + 1 := by
  unfold roundQuotient
  grind

theorem roundQuotient_mul (hdivisor : 0 < divisor) (quotient : ℕ) :
    roundQuotient (quotient * divisor) divisor = quotient := by
  simp [roundQuotient, hdivisor]

/-- Rounding moves by half a divisor at most, and by just a half to an even quotient only. -/
theorem roundQuotient_error (dividend : ℕ) (hdivisor : 0 < divisor) :
    2 * Nat.dist dividend (roundQuotient dividend divisor * divisor) ≤ divisor ∧
      (2 * Nat.dist dividend (roundQuotient dividend divisor * divisor) = divisor →
        roundQuotient dividend divisor % 2 = 0) := by
  have hsplit := Nat.div_add_mod' dividend divisor
  have hrest := Nat.mod_lt dividend hdivisor
  have hcases : (roundQuotient dividend divisor = dividend / divisor ∧
        2 * (dividend % divisor) ≤ divisor) ∨
      (roundQuotient dividend divisor = dividend / divisor + 1 ∧
        divisor ≤ 2 * (dividend % divisor)) := by
    unfold roundQuotient
    grind
  have htie : 2 * (dividend % divisor) = divisor → roundQuotient dividend divisor % 2 = 0 := by
    unfold roundQuotient
    grind
  unfold Nat.dist
  rcases hcases with ⟨hdown, hhalf⟩ | ⟨hup, hhalf⟩
  · rw [hdown] at htie ⊢
    omega
  · rw [hup] at htie ⊢
    rw [add_one_mul (dividend / divisor)]
    omega

/-- A rounded quotient is the nearest one, and an even one where another is as near. -/
theorem dist_roundQuotient (hdivisor : 0 < divisor) {other : ℕ}
    (hother : other ≠ roundQuotient dividend divisor) :
    Nat.dist dividend (roundQuotient dividend divisor * divisor) <
        Nat.dist dividend (other * divisor) ∨
      Nat.dist dividend (roundQuotient dividend divisor * divisor) =
          Nat.dist dividend (other * divisor) ∧
        roundQuotient dividend divisor % 2 = 0 := by
  obtain ⟨herror, htie⟩ := roundQuotient_error dividend hdivisor
  have hapart : divisor ≤
      Nat.dist (roundQuotient dividend divisor * divisor) (other * divisor) := by
    rw [Nat.dist_mul_right]
    exact Nat.le_mul_of_pos_left divisor (Nat.dist_pos_of_ne hother.symm)
  have htriangle := Nat.dist.triangle_inequality
    (roundQuotient dividend divisor * divisor) dividend (other * divisor)
  rw [Nat.dist_comm _ dividend] at htriangle
  omega

theorem dist_roundQuotient_le (hdivisor : 0 < divisor) (other : ℕ) :
    Nat.dist dividend (roundQuotient dividend divisor * divisor) ≤
      Nat.dist dividend (other * divisor) := by
  by_cases hsame : other = roundQuotient dividend divisor
  · rw [hsame]
  · rcases dist_roundQuotient hdivisor hsame with hlt | ⟨heq, -⟩
    · exact hlt.le
    · exact heq.le

/-- Where rounding stays below an even quotient. -/
theorem roundQuotient_lt_iff (hdivisor : 0 < divisor) {bound : ℕ} (heven : bound % 2 = 0) :
    roundQuotient dividend divisor < bound ↔ 2 * dividend + divisor < 2 * (bound * divisor) := by
  obtain ⟨herror, htie⟩ := roundQuotient_error dividend hdivisor
  unfold Nat.dist at herror htie
  constructor
  · intro hlt
    rcases Nat.eq_or_lt_of_le (Nat.succ_le_of_lt hlt) with hlast | hbefore
    · -- The last one below is odd, so it is not reached from half-way.
      have hmul : roundQuotient dividend divisor * divisor + divisor = bound * divisor := by
        rw [← hlast, Nat.succ_mul]
      omega
    · have hmul := Nat.mul_le_mul_right divisor (Nat.succ_le_of_lt hbefore)
      rw [Nat.succ_mul, Nat.succ_mul] at hmul
      omega
  · intro hlt
    by_contra hge
    have hmul := Nat.mul_le_mul_right divisor (Nat.le_of_not_lt hge)
    omega

end

namespace FloatFormat

variable {format : FloatFormat}

/-! ## Patterns by binades -/

/-- Every pattern has a place in a binade.  The first binade begins with zero, and each next one
with the power of two that it is named for. -/
theorem exists_binade (pattern : ℕ) :
    ∃ step place, pattern = step * format.binade + place ∧ place < 2 * format.binade ∧
      (step = 0 ∨ format.binade ≤ place) := by
  have hsplit := Nat.div_add_mod' pattern format.binade
  have hrest := Nat.mod_lt pattern format.binade_pos
  cases hquotient : pattern / format.binade with
  | zero =>
      rw [hquotient] at hsplit
      exact ⟨0, pattern % format.binade, by omega, by omega, .inl rfl⟩
  | succ step =>
      rw [hquotient, Nat.succ_mul] at hsplit
      exact ⟨step, format.binade + pattern % format.binade, by omega, by omega, .inr (by omega)⟩

theorem unitsOf_of_lt {fraction : ℕ} (hfraction : fraction < format.binade) :
    format.unitsOf fraction = fraction * 2 ^ format.quantum := by
  simp [unitsOf, Nat.div_eq_of_lt hfraction, Nat.mod_eq_of_lt hfraction]

theorem unitsOf_succ_mul_add (step : ℕ) {fraction : ℕ} (hfraction : fraction < format.binade) :
    format.unitsOf ((step + 1) * format.binade + fraction) =
      (format.binade + fraction) * 2 ^ (format.quantum + step) := by
  have hquotient : ((step + 1) * format.binade + fraction) / format.binade = step + 1 := by
    rw [Nat.mul_comm, Nat.mul_add_div format.binade_pos, Nat.div_eq_of_lt hfraction, Nat.add_zero]
  have hrest : ((step + 1) * format.binade + fraction) % format.binade = fraction := by
    rw [Nat.mul_comm, Nat.mul_add_mod, Nat.mod_eq_of_lt hfraction]
  rw [unitsOf, hquotient, hrest]
  rfl

/-- Within a binade the units are spaced evenly.  Its end is the beginning of the next one. -/
theorem unitsOf_add {step place : ℕ} (hplace : place ≤ 2 * format.binade)
    (hstep : step = 0 ∨ format.binade ≤ place) :
    format.unitsOf (step * format.binade + place) = place * 2 ^ (format.quantum + step) := by
  have hpos := format.binade_pos
  rcases Nat.lt_or_ge place format.binade with hfirst | hge
  · obtain rfl : step = 0 := by omega
    rw [Nat.zero_mul, Nat.zero_add, unitsOf_of_lt hfirst, Nat.add_zero]
  · obtain ⟨fraction, rfl⟩ := Nat.exists_eq_add_of_le hge
    rw [← Nat.add_assoc, ← Nat.succ_mul]
    rcases Nat.eq_or_lt_of_le hplace with hlast | hlt
    · obtain rfl : fraction = format.binade := by omega
      have hnext := unitsOf_succ_mul_add (step + 1) hpos
      rw [Nat.add_zero, Nat.add_zero] at hnext
      rw [← Nat.succ_mul, hnext, Nat.add_succ, Nat.pow_succ]
      ring
    · rw [unitsOf_succ_mul_add step (by omega)]

/-! ## The spacing around a number of units -/

theorem quantum_le_spacing (units : ℕ) : format.quantum ≤ format.spacing units :=
  Nat.le_max_left _ _

theorem lt_spacing (units : ℕ) : units < 2 * format.binade * 2 ^ format.spacing units := by
  have hexponent : units.log2 + 1 ≤ 1 + format.fractionBits + format.spacing units := by
    unfold spacing
    omega
  calc units < 2 ^ (units.log2 + 1) := Nat.lt_log2_self
    _ ≤ 2 ^ (1 + format.fractionBits + format.spacing units) :=
        Nat.pow_le_pow_right Nat.two_pos hexponent
    _ = 2 * format.binade * 2 ^ format.spacing units := by
        rw [Nat.pow_add, Nat.pow_add, Nat.pow_one, binade_eq]

theorem spacing_le {units : ℕ} (hspacing : format.quantum < format.spacing units) :
    format.binade * 2 ^ format.spacing units ≤ units := by
  have hexponent : format.fractionBits + format.spacing units = units.log2 := by
    unfold spacing at hspacing ⊢
    omega
  have hunits : units ≠ 0 := by
    rintro rfl
    simp [spacing] at hspacing
  calc format.binade * 2 ^ format.spacing units = 2 ^ units.log2 := by
        rw [← hexponent, Nat.pow_add, binade_eq]
    _ ≤ units := Nat.log2_self_le hunits

/-- How many spacings a number of units is, in whole ones. -/
def rounded (format : FloatFormat) (units : ℕ) : ℕ :=
  roundQuotient units (2 ^ format.spacing units)

/-- The pattern of the nearest value, as if there were no greatest one. -/
def unclamped (format : FloatFormat) (units : ℕ) : ℕ :=
  (format.spacing units - format.quantum) * format.binade + format.rounded units

theorem magnitude_eq (units : ℕ) :
    format.magnitude units = min format.infinity (format.unclamped units) := rfl

theorem rounded_le (units : ℕ) : format.rounded units ≤ 2 * format.binade := by
  have hquotient : units / 2 ^ format.spacing units < 2 * format.binade :=
    (Nat.div_lt_iff_lt_mul (Nat.two_pow_pos _)).mpr (lt_spacing units)
  exact Nat.le_trans roundQuotient_le_succ_div hquotient

theorem le_rounded {units : ℕ} (hspacing : format.quantum < format.spacing units) :
    format.binade ≤ format.rounded units :=
  Nat.le_trans ((Nat.le_div_iff_mul_le (Nat.two_pow_pos _)).mpr (spacing_le hspacing))
    div_le_roundQuotient

theorem unitsOf_unclamped (units : ℕ) :
    format.unitsOf (format.unclamped units) =
      format.rounded units * 2 ^ format.spacing units := by
  have hquantum := format.quantum_le_spacing units
  rw [unclamped, unitsOf_add (rounded_le units), Nat.add_sub_cancel' hquantum]
  rcases Nat.eq_or_lt_of_le hquantum with heq | hlt
  · exact .inl (by omega)
  · exact .inr (le_rounded hlt)

/-- A value is on the grid of a spacing, unless it is below the binade of the spacing. -/
theorem dvd_or_lt_of_spacing (pattern : ℕ) (exponent : ℕ) :
    2 ^ exponent ∣ format.unitsOf pattern ∨
      format.unitsOf pattern < format.binade * 2 ^ exponent ∧ format.quantum < exponent := by
  obtain ⟨step, place, rfl, hplace, hstep⟩ := format.exists_binade pattern
  rw [unitsOf_add (Nat.le_of_lt hplace) hstep]
  rcases Nat.lt_or_ge (format.quantum + step) exponent with hlt | hge
  · right
    refine ⟨?_, by omega⟩
    calc place * 2 ^ (format.quantum + step)
        < 2 * format.binade * 2 ^ (format.quantum + step) :=
          Nat.mul_lt_mul_of_pos_right hplace (Nat.two_pow_pos _)
      _ = format.binade * 2 ^ (format.quantum + step + 1) := by
          rw [Nat.pow_succ]
          ring
      _ ≤ format.binade * 2 ^ exponent :=
          Nat.mul_le_mul_left _ (Nat.pow_le_pow_right Nat.two_pos hlt)
  · exact .inl (Nat.dvd_mul_left_of_dvd (Nat.pow_dvd_pow 2 hge) place)

/-- **The pattern found is that of the nearest value**, and it is even where another value is as
near. -/
theorem dist_unclamped (units : ℕ) (hfraction : 0 < format.fractionBits) {pattern : ℕ}
    (hother : format.unitsOf pattern ≠ format.unitsOf (format.unclamped units)) :
    Nat.dist units (format.unitsOf (format.unclamped units)) <
        Nat.dist units (format.unitsOf pattern) ∨
      Nat.dist units (format.unitsOf (format.unclamped units)) =
          Nat.dist units (format.unitsOf pattern) ∧
        format.unclamped units % 2 = 0 := by
  have hspacing := Nat.two_pow_pos (format.spacing units)
  have hbinade : 2 ∣ format.binade := dvd_pow_self 2 hfraction.ne'
  have heven : format.unclamped units % 2 = format.rounded units % 2 := by
    rw [unclamped, Nat.add_mod, Nat.mod_eq_zero_of_dvd (Nat.dvd_mul_left_of_dvd hbinade _),
      Nat.zero_add, Nat.mod_mod]
  rw [heven]
  rw [unitsOf_unclamped] at hother ⊢
  rcases dvd_or_lt_of_spacing pattern (format.spacing units) with
    ⟨quotient, hgrid⟩ | ⟨hbelow, hquantum⟩
  · rw [hgrid, Nat.mul_comm (2 ^ _)] at hother ⊢
    exact dist_roundQuotient hspacing fun heq => hother (congrArg (· * _) heq)
  · -- The power of two below the units is on the grid and nearer than what is below it.
    have hpower := spacing_le hquantum
    left
    calc Nat.dist units (format.rounded units * 2 ^ format.spacing units)
        ≤ Nat.dist units (format.binade * 2 ^ format.spacing units) :=
          dist_roundQuotient_le hspacing format.binade
      _ < Nat.dist units (format.unitsOf pattern) := by
          unfold Nat.dist
          omega

/-! ## Where infinity begins -/

/-- The exponent of the spacing between the greatest values. -/
def topSpacing (format : FloatFormat) : ℕ := format.quantum + (format.topExponent - 2)

theorem infinity_eq (htop : 2 ≤ format.topExponent) :
    format.infinity = (format.topSpacing - format.quantum) * format.binade + 2 * format.binade := by
  rw [infinity, ← Nat.add_mul, topSpacing]
  congr 1
  omega

/-- In an earlier binade than the last one infinity is out of reach. -/
theorem unclamped_lt_infinity_of_lt {units : ℕ} (htop : 2 ≤ format.topExponent)
    (hspacing : format.spacing units < format.topSpacing) :
    format.unclamped units < format.infinity := by
  have hquantum := format.quantum_le_spacing units
  have hle := format.rounded_le units
  have hpos := format.binade_pos
  have hbinades : (format.spacing units - format.quantum + 1) * format.binade ≤
      (format.topSpacing - format.quantum) * format.binade :=
    Nat.mul_le_mul_right _ (by omega)
  rw [Nat.succ_mul] at hbinades
  rw [unclamped, infinity_eq htop]
  omega

/-- In a later binade there is nothing but infinity. -/
theorem infinity_le_unclamped_of_lt {units : ℕ} (htop : 2 ≤ format.topExponent)
    (hspacing : format.topSpacing < format.spacing units) :
    format.infinity ≤ format.unclamped units := by
  have hquantum : format.quantum ≤ format.topSpacing := Nat.le_add_right _ _
  have hge : format.binade ≤ format.rounded units := le_rounded (hquantum.trans_lt hspacing)
  have hbinades : (format.topSpacing - format.quantum + 1) * format.binade ≤
      (format.spacing units - format.quantum) * format.binade :=
    Nat.mul_le_mul_right _ (by omega)
  rw [Nat.succ_mul] at hbinades
  rw [unclamped, infinity_eq htop]
  omega

/-- Half-way past the greatest value infinity begins. -/
theorem unclamped_lt_infinity_iff (units : ℕ) (htop : 2 ≤ format.topExponent) :
    format.unclamped units < format.infinity ↔
      2 * units + 2 ^ format.topSpacing < 2 * (2 * format.binade * 2 ^ format.topSpacing) := by
  have hpos := Nat.two_pow_pos format.topSpacing
  rcases Nat.lt_trichotomy (format.spacing units) format.topSpacing with hlt | heq | hgt
  · refine iff_of_true (unclamped_lt_infinity_of_lt htop hlt) ?_
    have hunits := format.lt_spacing units
    have hhalf : 2 * format.binade * (2 ^ format.spacing units * 2) ≤
        2 * format.binade * 2 ^ format.topSpacing :=
      Nat.mul_le_mul_left _ (Nat.pow_le_pow_right Nat.two_pos hlt)
    have hlast : 2 ^ format.topSpacing ≤ 2 * format.binade * 2 ^ format.topSpacing :=
      Nat.le_mul_of_pos_left _ (Nat.mul_pos Nat.two_pos format.binade_pos)
    rw [← Nat.mul_assoc] at hhalf
    omega
  · -- In the last binade the quotient decides.
    rw [unclamped, infinity_eq htop, heq, Nat.add_lt_add_iff_left, rounded, heq,
      roundQuotient_lt_iff hpos (Nat.mul_mod_right 2 format.binade)]
  · refine iff_of_false (Nat.not_lt.mpr (infinity_le_unclamped_of_lt htop hgt)) ?_
    have hbelow : format.binade * 2 ^ format.spacing units ≤ units :=
      spacing_le ((Nat.le_add_right _ _).trans_lt hgt)
    have hdouble : format.binade * (2 ^ format.topSpacing * 2) ≤
        format.binade * 2 ^ format.spacing units :=
      Nat.mul_le_mul_left _ (Nat.pow_le_pow_right Nat.two_pos hgt)
    rw [Nat.mul_assoc 2]
    rw [← Nat.mul_assoc] at hdouble
    omega

/-! ## Values whose bits fit -/

theorem spacing_le_of_lt {place exponent : ℕ} (hplace : place < 2 * format.binade)
    (hquantum : format.quantum ≤ exponent) : format.spacing (place * 2 ^ exponent) ≤ exponent := by
  rcases Nat.eq_zero_or_pos place with rfl | hpos
  · simpa [spacing] using hquantum
  · have hlog : (place * 2 ^ exponent).log2 < format.fractionBits + 1 + exponent := by
      rw [Nat.log2_lt (Nat.mul_pos hpos (Nat.two_pow_pos exponent)).ne', Nat.pow_add, Nat.pow_succ',
        ← binade_eq]
      exact Nat.mul_lt_mul_of_pos_right hplace (Nat.two_pow_pos exponent)
    unfold spacing
    omega

/-- A number of units on its grid is that of a pattern. -/
theorem unitsOf_unclamped_of_fits {place exponent : ℕ} (hplace : place < 2 * format.binade)
    (hquantum : format.quantum ≤ exponent) :
    format.unitsOf (format.unclamped (place * 2 ^ exponent)) = place * 2 ^ exponent := by
  have hgrid : 2 ^ format.spacing (place * 2 ^ exponent) ∣ place * 2 ^ exponent :=
    Nat.dvd_mul_left_of_dvd (Nat.pow_dvd_pow 2 (spacing_le_of_lt hplace hquantum)) place
  rw [unitsOf_unclamped, rounded]
  nth_rewrite 1 [← Nat.div_mul_cancel hgrid]
  rw [roundQuotient_mul (Nat.two_pow_pos _), Nat.div_mul_cancel hgrid]

theorem unclamped_lt_infinity_of_fits {place exponent : ℕ} (hplace : place < 2 * format.binade)
    (hexponent : exponent ≤ format.topSpacing) (htop : 2 ≤ format.topExponent) :
    format.unclamped (place * 2 ^ exponent) < format.infinity := by
  rw [unclamped_lt_infinity_iff _ htop]
  have hpos := Nat.two_pow_pos format.topSpacing
  have hunits : place * 2 ^ exponent ≤ place * 2 ^ format.topSpacing :=
    Nat.mul_le_mul_left place (Nat.pow_le_pow_right Nat.two_pos hexponent)
  have hlast : (place + 1) * 2 ^ format.topSpacing ≤ 2 * format.binade * 2 ^ format.topSpacing :=
    Nat.mul_le_mul_right _ hplace
  rw [Nat.succ_mul] at hlast
  omega

/-! ## Encoding and decoding -/

theorem infinity_lt_signBit : format.infinity < format.signBit true := by
  rw [signBit_true, infinity, topExponent_eq]
  exact Nat.mul_lt_mul_of_pos_right (Nat.sub_lt (Nat.two_pow_pos _) Nat.one_pos) format.binade_pos

theorem decode_signBit_add (negative : Bool) {unsigned : ℕ}
    (hunsigned : unsigned < format.signBit true) :
    format.decode (format.signBit negative + unsigned) =
      if unsigned < format.infinity then .finite negative (format.unitsOf unsigned)
      else if unsigned = format.infinity then .infinite negative
      else .notANumber := by
  have hpos := (Nat.zero_le unsigned).trans_lt hunsigned
  have hfields : (format.signBit negative + unsigned) / format.signBit true = negative.toNat ∧
      (format.signBit negative + unsigned) % format.signBit true = unsigned := by
    cases negative with
    | false =>
        rw [show format.signBit false = 0 from rfl, Nat.zero_add]
        exact ⟨Nat.div_eq_of_lt hunsigned, Nat.mod_eq_of_lt hunsigned⟩
    | true =>
        rw [Nat.add_div_left unsigned hpos, Nat.div_eq_of_lt hunsigned, Nat.add_mod_left]
        exact ⟨rfl, Nat.mod_eq_of_lt hunsigned⟩
  unfold decode
  rw [hfields.1, hfields.2]
  cases negative <;> rfl

theorem decode_finite (negative : Bool) {unsigned : ℕ} (hfinite : unsigned < format.infinity) :
    format.decode (format.signBit negative + unsigned) =
      .finite negative (format.unitsOf unsigned) := by
  rw [decode_signBit_add negative (hfinite.trans infinity_lt_signBit), if_pos hfinite]

theorem decode_infinite (negative : Bool) :
    format.decode (format.signBit negative + format.infinity) = .infinite negative := by
  rw [decode_signBit_add negative infinity_lt_signBit, if_neg (Nat.lt_irrefl _), if_pos rfl]

/-- Each value in units is one without sign under its sign. -/
theorem exists_of_decode_eq {pattern : ℕ} {negative : Bool} {units : ℕ}
    (hdecode : format.decode pattern = .finite negative units) :
    ∃ unsigned < format.infinity, format.unitsOf unsigned = units := by
  simp only [decode] at hdecode
  split_ifs at hdecode with hfinite hinfinite
  · injection hdecode with _ hunits
    exact ⟨_, hfinite, hunits⟩

theorem Standard.quiet_bounds (h : format.Standard) :
    format.infinity < format.quiet ∧ format.quiet < format.signBit true := by
  have hhalf : 2 ≤ format.binade := Nat.le_self_pow h.fraction_pos.ne' 2
  have hsign : format.signBit true = format.infinity + format.binade := by
    rw [signBit_true, infinity, topExponent_eq, ← Nat.succ_mul, Nat.succ_eq_add_one,
      Nat.sub_add_cancel (Nat.two_pow_pos _)]
  unfold quiet
  omega

theorem Standard.decode_quiet (h : format.Standard) : format.decode format.quiet = .notANumber := by
  obtain ⟨hlower, hupper⟩ := h.quiet_bounds
  have hdecode := format.decode_signBit_add false hupper
  rwa [show format.signBit false = 0 from rfl, Nat.zero_add, if_neg hlower.not_gt,
    if_neg hlower.ne'] at hdecode

/-- What is encoded has no more bits than the layout. -/
theorem Standard.encode_lt (h : format.Standard) (value : FloatValue) :
    format.encode value < 2 * format.signBit true := by
  have hinfinity := format.infinity_lt_signBit
  have hsign : ∀ negative, format.signBit negative ≤ format.signBit true := by
    intro negative
    cases negative with
    | false => exact Nat.zero_le _
    | true => exact Nat.le_refl _
  cases value with
  | notANumber =>
      have := h.quiet_bounds
      simp only [encode]
      omega
  | infinite negative =>
      have := hsign negative
      simp only [encode]
      omega
  | finite negative units =>
      have := hsign negative
      have := Nat.min_le_left format.infinity (format.unclamped units)
      simp only [encode, magnitude_eq]
      omega

theorem Standard.topExponent_eq_bias (h : format.Standard) :
    format.topExponent = 2 * format.bias + 1 := by
  have hhalf : 2 ^ format.exponentBits = 2 * 2 ^ (format.exponentBits - 1) := by
    rw [← Nat.pow_succ', Nat.succ_eq_add_one, Nat.sub_add_cancel (Nat.le_of_lt h.exponent_gt_one)]
  have hpos := Nat.two_pow_pos (format.exponentBits - 1)
  rw [topExponent_eq, bias]
  omega

theorem Standard.two_le_topExponent (h : format.Standard) : 2 ≤ format.topExponent := by
  have hfour : 2 ^ 2 ≤ 2 ^ format.exponentBits := Nat.pow_le_pow_right Nat.two_pos h.exponent_gt_one
  rw [topExponent_eq]
  omega

/-! ## From a layout to a wider one -/

/-- Every value of the layout is one of another layout, too. -/
structure FitsIn (narrow wide : FloatFormat) : Prop where
  binade_le : narrow.binade ≤ wide.binade
  quantum_le : wide.quantum ≤ narrow.quantum
  topSpacing_le : narrow.topSpacing ≤ wide.topSpacing

theorem binary32_fitsIn_binary64 : binary32.FitsIn binary64 := ⟨by decide, by decide, by decide⟩

theorem exists_fitting {unsigned : ℕ} (hfinite : unsigned < format.infinity)
    (htop : 2 ≤ format.topExponent) :
    ∃ place exponent, format.unitsOf unsigned = place * 2 ^ exponent ∧
      place < 2 * format.binade ∧ format.quantum ≤ exponent ∧ exponent ≤ format.topSpacing := by
  obtain ⟨step, place, rfl, hplace, hstep⟩ := format.exists_binade unsigned
  refine ⟨place, format.quantum + step, unitsOf_add hplace.le hstep, hplace,
    Nat.le_add_right _ _, Nat.add_le_add_left ?_ _⟩
  rcases hstep with rfl | hge
  · exact Nat.zero_le _
  · -- The pattern is beyond the beginning of its binade and short of infinity.
    have hlt : (step + 1) * format.binade < format.topExponent * format.binade := by
      rw [infinity] at hfinite
      rw [Nat.succ_mul]
      omega
    have := Nat.lt_of_mul_lt_mul_right hlt
    omega

/-- A value whose bits fit is encoded exactly. -/
theorem Standard.decode_encode_of_fits (h : format.Standard) (negative : Bool)
    {place exponent : ℕ} (hplace : place < 2 * format.binade) (hquantum : format.quantum ≤ exponent)
    (hexponent : exponent ≤ format.topSpacing) :
    format.decode (format.encode (.finite negative (place * 2 ^ exponent))) =
      .finite negative (place * 2 ^ exponent) := by
  have hfinite := unclamped_lt_infinity_of_fits hplace hexponent h.two_le_topExponent
  rw [encode, magnitude_eq, Nat.min_eq_right hfinite.le, decode_finite negative hfinite,
    unitsOf_unclamped_of_fits hplace hquantum]

/-- **A wider layout holds every value of a narrower one.** -/
theorem FitsIn.decode_encode_decode {narrow wide : FloatFormat} (hfits : narrow.FitsIn wide)
    (hnarrow : narrow.Standard) (hwide : wide.Standard) (pattern : ℕ) :
    wide.decode (wide.encode (narrow.decode pattern)) = narrow.decode pattern := by
  cases hdecode : narrow.decode pattern with
  | notANumber => exact hwide.decode_quiet
  | infinite negative => exact decode_infinite negative
  | finite negative units =>
      obtain ⟨unsigned, hfinite, rfl⟩ := exists_of_decode_eq hdecode
      obtain ⟨place, exponent, hunits, hplace, hquantum, hexponent⟩ :=
        exists_fitting hfinite hnarrow.two_le_topExponent
      rw [hunits]
      exact hwide.decode_encode_of_fits negative
        (hplace.trans_le (Nat.mul_le_mul_left 2 hfits.binade_le))
        (hfits.quantum_le.trans hquantum) (hexponent.trans hfits.topSpacing_le)

end FloatFormat

end Snapshot
