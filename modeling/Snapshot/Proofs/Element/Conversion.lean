import Snapshot.Proofs.Element.Packed
import Snapshot.Proofs.Number.Nearest

/-!
# Conversion by value

What an element of one type becomes in another is settled by what its pattern stands for
(`FloatFormat.meaning`), a rational number in general, and by exact arithmetic on that.  The ways
from a float to an integer and to a float are one each, whatever the types
(`Element.toNat_convert_eq_clamped`, `Element.convert_isRounded`).  What is special about a pair of
types is only whether anything is rounded at all: no integer overflows a float, and double
precision holds every single-precision number.
-/

namespace Snapshot

namespace ElementType

variable {type : ElementType} {format : FloatFormat}

theorem standard_of_format?_eq (hformat : type.format? = some format) : format.Standard := by
  cases type with
  | u32 | u64 => cases hformat
  | f32 =>
      cases hformat
      exact FloatFormat.binary32_standard
  | f64 =>
      cases hformat
      exact FloatFormat.binary64_standard

theorem wordBound_size_of_format?_eq (hformat : type.format? = some format) :
    wordBound type.size = 2 * format.signBit true := by
  cases type with
  | u32 | u64 => cases hformat
  | f32 | f64 =>
      cases hformat
      decide

/-- The integers of every type are below the powers of two at which the layouts end. -/
theorem bits_le_bias_of_format?_eq (source : ElementType)
    (hformat : type.format? = some format) : 8 * source.size ≤ format.bias := by
  cases type with
  | u32 | u64 => cases hformat
  | f32 | f64 =>
      cases hformat
      cases source <;> decide

end ElementType

namespace Element

open FloatFormat

variable {source target : ElementType} {format layout : FloatFormat}

theorem toNat_convert_of_integers (e : Element source) (hsource : source.format? = none)
    (htarget : target.format? = none) :
    (e.convert target).toNat = e.toNat % 2 ^ (8 * target.size) := by
  have hconvert : e.convert target = ofPattern target e.toNat := by
    unfold convert
    rw [hsource, htarget]
    exact ite_self _
  rw [hconvert, ofPattern, BitVec.toNat_ofNat]

theorem toNat_convert_to_float (e : Element source) (hne : source ≠ target)
    (htarget : target.format? = some format) :
    (e.convert target).toNat = format.encode e.value := by
  have hconvert : e.convert target = ofPattern target (format.encode e.value) := by
    unfold convert
    rw [if_neg hne, htarget]
    cases source.format? <;> rfl
  have hbound := (ElementType.standard_of_format?_eq htarget).encode_lt e.value
  rw [← ElementType.wordBound_size_of_format?_eq htarget] at hbound
  rw [hconvert, toNat_ofPattern hbound]

theorem toNat_convert_to_integer (e : Element source) (hsource : source.format? = some format)
    (htarget : target.format? = none) :
    (e.convert target).toNat = (format.decode e.toNat).truncate (wordBound target.size - 1) := by
  have hne : source ≠ target := by
    rintro rfl
    simp [hsource] at htarget
  have hconvert : e.convert target =
      ofPattern target ((format.decode e.toNat).truncate (wordBound target.size - 1)) := by
    unfold convert
    rw [if_neg hne, hsource, htarget]
  have hbound := (format.decode e.toNat).truncate_le (wordBound target.size - 1)
  have hpos : 0 < wordBound target.size := Nat.pow_pos (by decide)
  rw [hconvert, toNat_ofPattern (by omega)]

/-- The value of an integer is as many units as it is times those of one. -/
theorem value_of_integer (e : Element source) (hsource : source.format? = none) :
    e.value = .finite false (e.toNat * unitsPerOne) := by
  rw [value, hsource]

theorem value_of_float (e : Element source) (hsource : source.format? = some format) :
    e.value = format.decode e.toNat := by
  rw [value, hsource]

/-- An integer stands for itself. -/
theorem meaning_value_of_integer (e : Element source) (hsource : source.format? = none) :
    e.value.meaning = .number false e.toNat := by
  rw [value_of_integer e hsource]
  show Meaning.number false (ofUnits (e.toNat * unitsPerOne)) = _
  rw [ofUnits_mul_unitsPerOne]

theorem meaning_value_of_float (e : Element source) (hsource : source.format? = some format) :
    e.value.meaning = format.meaning e.toNat := by
  rw [value_of_float e hsource, meaning_eq (ElementType.standard_of_format?_eq hsource)]

/-- **A float becomes the integer that is left of its value** when the fraction is dropped and the
rest is clamped to the integers of the type. -/
theorem toNat_convert_eq_clamped (e : Element source) (hsource : source.format? = some format)
    (htarget : target.format? = none) :
    ((e.convert target).toNat : ℤ) =
      (format.meaning e.toNat).clamped (2 ^ (8 * target.size) - 1) := by
  have hbound : wordBound target.size = 2 ^ (8 * target.size) := (Nat.pow_mul 2 8 target.size).symm
  rw [toNat_convert_to_integer e hsource htarget, FloatValue.truncate_eq, hbound,
    meaning_eq (ElementType.standard_of_format?_eq hsource)]

/-- **An element becomes the nearest float**, and infinity where it is beyond the greatest one. -/
theorem convert_isRounded (e : Element source) (hne : source ≠ target)
    (htarget : target.format? = some format) :
    format.IsRounded e.value.meaning (e.convert target).toNat := by
  rw [toNat_convert_to_float e hne htarget]
  exact (ElementType.standard_of_format?_eq htarget).encode_isRounded e.value

/-- No integer is beyond the greatest float. -/
theorem convert_isNearest (e : Element source) (hsource : source.format? = none)
    (htarget : target.format? = some format) :
    format.IsNearest false e.toNat (e.convert target).toNat := by
  have hne : source ≠ target := by
    rintro rfl
    simp [hsource] at htarget
  have hlt : |(e.toNat : ℚ)| < format.overflow := by
    calc |(e.toNat : ℚ)| = e.toNat := abs_of_nonneg (Nat.cast_nonneg _)
      _ < 2 ^ (8 * source.size) := by exact_mod_cast e.isLt
      _ ≤ 2 ^ format.bias :=
          pow_le_pow_right₀ one_le_two (ElementType.bits_le_bias_of_format?_eq source htarget)
      _ ≤ format.overflow := two_pow_bias_le_overflow
  have hrounded := convert_isRounded e hne htarget
  rwa [meaning_value_of_integer e hsource, IsRounded, if_pos hlt] at hrounded

/-- A float keeps its value in a wider layout. -/
theorem value_convert_of_fitsIn (e : Element source) (hsource : source.format? = some layout)
    (htarget : target.format? = some format) (hfits : layout.FitsIn format) :
    (e.convert target).value = e.value := by
  by_cases hsame : source = target
  · subst hsame
    rw [convert_self]
  · rw [value_of_float _ htarget, toNat_convert_to_float e hsame htarget, value_of_float e hsource,
      hfits.decode_encode_decode (ElementType.standard_of_format?_eq hsource)
        (ElementType.standard_of_format?_eq htarget)]

/-- A single-precision number is a double-precision one. -/
theorem meaning_convert_f32_f64 (e : Element .f32) :
    binary64.meaning (e.convert .f64).toNat = binary32.meaning e.toNat := by
  rw [← meaning_value_of_float e rfl, ← meaning_value_of_float (e.convert .f64) rfl,
    value_convert_of_fitsIn e rfl rfl binary32_fitsIn_binary64]

/-- **Conversion is exact arithmetic on what the patterns stand for.**  A float loses its fraction
and is clamped when it becomes an integer; an integer keeps its low bits, which is all of it in a
wider type; an integer becomes the nearest float; and a float keeps its value in double precision
and is rounded to the nearest one, under its sign, in single precision. -/
theorem converts_by_value :
    (∀ {source target : ElementType} {format : FloatFormat} (e : Element source),
      source.format? = some format → target.format? = none →
        ((e.convert target).toNat : ℤ) =
          (format.meaning e.toNat).clamped (2 ^ (8 * target.size) - 1)) ∧
      (∀ e : Element .u64, (e.convert .u32).toNat = e.toNat % 2 ^ 32) ∧
      (∀ e : Element .u32, (e.convert .u64).toNat = e.toNat) ∧
      (∀ {source target : ElementType} {format : FloatFormat} (e : Element source),
        source.format? = none → target.format? = some format →
          format.IsNearest false e.toNat (e.convert target).toNat) ∧
      (∀ e : Element .f32, binary64.meaning (e.convert .f64).toNat = binary32.meaning e.toNat) ∧
      (∀ e : Element .f64,
        binary32.IsRounded (binary64.meaning e.toNat) (e.convert .f32).toNat) := by
  refine ⟨?_, ?_, ?_, ?_, meaning_convert_f32_f64, ?_⟩
  · intro source target format e hsource htarget
    exact toNat_convert_eq_clamped e hsource htarget
  · intro e
    exact toNat_convert_of_integers e rfl rfl
  · intro e
    have hlt : e.toNat < 2 ^ 64 := Nat.lt_trans e.isLt (by decide)
    exact (toNat_convert_of_integers e rfl rfl).trans (Nat.mod_eq_of_lt hlt)
  · intro source target format e hsource htarget
    exact convert_isNearest e hsource htarget
  · intro e
    rw [← meaning_value_of_float e rfl]
    exact convert_isRounded e (by decide) rfl

/-- An odd number half-way between two floats goes to the even pattern, and what is not a number
goes to zero. -/
theorem converts_by_value_halfway :
    ElementType.u32.format? = none ∧ ElementType.f32.format? = some binary32 ∧
      binary32.IsNearest false (16777217 : ℕ) 0x4b800000 ∧
      binary32.meaning 0x7fc00001 = .notANumber ∧
      ((ofPattern .f32 0x7fc00001).convert .u32).toNat = (0 : ℤ) := by
  obtain ⟨hclamped, -, -, hnearest, -⟩ := converts_by_value
  have hconvert : ((ofPattern .u32 16777217).convert .f32).toNat = 0x4b800000 := by
    decide +kernel
  have hmeaning : binary32.meaning 0x7fc00001 = .notANumber := by
    rw [meaning_eq binary32_standard]
    rfl
  refine ⟨rfl, rfl, ?_, hmeaning, ?_⟩
  · rw [← hconvert]
    exact hnearest (ofPattern .u32 16777217) rfl rfl
  · have hclampedAt : (((ofPattern .f32 0x7fc00001).convert .u32).toNat : ℤ) =
        (binary32.meaning 0x7fc00001).clamped (2 ^ 32 - 1) :=
      hclamped (ofPattern .f32 0x7fc00001) rfl rfl
    rwa [hmeaning] at hclampedAt

end Element

end Snapshot
