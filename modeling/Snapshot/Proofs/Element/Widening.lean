import Snapshot.Proofs.Element.Conversion
import Snapshot.Proofs.Number.Exact

/-!
# Widening loses nothing

A type that holds all numbers of another one can stand in between: an element that is converted to
it keeps its value, and from there goes on as if it came straight from the type that it was stored
in.  There are three ways for this to be so.  Integers keep their low bits in any integer type that
has as many (`Element.convert_convert_of_integers`); an integer whose bits a float keeps is cut and
clamped to itself (`Element.convert_convert_of_value_eq`); and a float comes back from a wider
layout bit for bit, unless it is not a number (`Element.convert_convert_of_fitsIn`).

What holds of each element holds of packed bytes (`convertPacked_recodeEach`), and to convert back
to the type that was stored is to copy (`recodeEach_self`).
-/

namespace Snapshot

/-- Every layout in use has fewer bits in its fraction than the bias counts. -/
theorem ElementType.fractionBits_le_bias_of_format?_eq {type : ElementType} {format : FloatFormat}
    (hformat : type.format? = some format) : format.fractionBits ≤ format.bias := by
  cases type with
  | u32 | u64 => cases hformat
  | f32 | f64 =>
      cases hformat
      decide

/-! ## A type in between -/

namespace Element

open FloatFormat

variable {source middle target : ElementType} {format layout : FloatFormat}

theorem toNat_lt_two_pow (e : Element source) {size : ℕ} (hsize : source.size ≤ size) :
    e.toNat < 2 ^ (8 * size) :=
  e.isLt.trans_le (Nat.pow_le_pow_right Nat.two_pos (Nat.mul_le_mul_left 8 hsize))

/-- An integer keeps its value in a float that keeps all its bits. -/
theorem value_convert_of_bits (e : Element source) (hsource : source.format? = none)
    (htarget : target.format? = some format) (hbits : 8 * source.size ≤ format.fractionBits + 1) :
    (e.convert target).value = e.value := by
  have hne : source ≠ target := by
    rintro rfl
    simp [hsource] at htarget
  have hlt : e.toNat < 2 * format.binade := by
    calc e.toNat < 2 ^ (8 * source.size) := e.isLt
      _ ≤ 2 ^ (format.fractionBits + 1) := Nat.pow_le_pow_right Nat.two_pos hbits
      _ = 2 * format.binade := Nat.pow_succ'
  rw [value_of_float _ htarget, toNat_convert_to_float e hne htarget, value_of_integer e hsource]
  exact (ElementType.standard_of_format?_eq htarget).decode_ofNat
    (ElementType.fractionBits_le_bias_of_format?_eq htarget) hlt

/-- The low bits are those of an integer type in between that has as many. -/
theorem convert_convert_of_integers (e : Element source) (hsource : source.format? = none)
    (hmiddle : middle.format? = none) (htarget : target.format? = none)
    (hsize : target.size ≤ middle.size) :
    (e.convert middle).convert target = e.convert target := by
  have hdvd : 2 ^ (8 * target.size) ∣ 2 ^ (8 * middle.size) :=
    Nat.pow_dvd_pow 2 (Nat.mul_le_mul_left 8 hsize)
  apply BitVec.eq_of_toNat_eq
  rw [toNat_convert_of_integers _ hmiddle htarget, toNat_convert_of_integers e hsource hmiddle,
    toNat_convert_of_integers e hsource htarget, Nat.mod_mod_of_dvd _ hdvd]

/-- An integer that kept its value in a float has no fraction to lose, and nothing to be clamped
where the type has room for it. -/
theorem convert_convert_of_value_eq (e : Element source) (hsource : source.format? = none)
    (hmiddle : middle.format? = some format) (htarget : target.format? = none)
    (hsize : source.size ≤ target.size) (hvalue : (e.convert middle).value = e.value) :
    (e.convert middle).convert target = e.convert target := by
  have hlt := e.toNat_lt_two_pow hsize
  have hbound : wordBound target.size = 2 ^ (8 * target.size) := (Nat.pow_mul 2 8 target.size).symm
  apply BitVec.eq_of_toNat_eq
  rw [toNat_convert_to_integer _ hmiddle htarget, ← value_of_float _ hmiddle, hvalue,
    value_of_integer e hsource, FloatValue.truncate_mul_unitsPerOne, hbound,
    Nat.min_eq_right (Nat.le_sub_one_of_lt hlt), toNat_convert_of_integers e hsource htarget,
    Nat.mod_eq_of_lt hlt]

/-- A float comes back from a wider layout bit for bit. -/
theorem convert_convert_of_fitsIn (e : Element source) (hsource : source.format? = some layout)
    (hmiddle : middle.format? = some format) (hfits : layout.FitsIn format)
    (hnumber : layout.meaning e.toNat ≠ .notANumber) :
    (e.convert middle).convert source = e := by
  rw [ne_eq, (ElementType.standard_of_format?_eq hsource).meaning_eq_notANumber_iff] at hnumber
  by_cases hsame : source = middle
  · subst hsame
    rw [convert_self, convert_self]
  · have hpattern : e.toNat < 2 * layout.signBit true :=
      ElementType.wordBound_size_of_format?_eq hsource ▸ e.toNat_lt_wordBound
    apply BitVec.eq_of_toNat_eq
    rw [toNat_convert_to_float _ (Ne.symm hsame) hsource,
      value_convert_of_fitsIn e hsource hmiddle hfits, value_of_float e hsource,
      FloatFormat.encode_decode hpattern hnumber]

end Element

/-! ## Packed bytes -/

section

variable {source middle target : ElementType} {order : ByteOrder} {raw : Bytes}

/-- Packed bytes take the way through another type as each of their elements does. -/
theorem convertPacked_recodeEach
    (hpieces : ∀ piece ∈ wholeElements source.size raw,
      ((Element.decode source order piece).convert middle).convert target =
        (Element.decode source order piece).convert target) :
    convertPacked middle target order (recodeEach source middle order raw) =
      .ok (recodeEach source target order raw) := by
  have heach : (wholeElements source.size raw).map
        (recode middle target order ∘ recode source middle order) =
      (wholeElements source.size raw).map (recode source target order) := by
    apply List.map_congr_left
    intro piece hpiece
    simp only [Function.comp_apply, recode, Element.decode_encode, hpieces piece hpiece]
  rw [convertPacked_eq_ok, recodeEach, wholeElements_recodeEach, List.flatMap_def, List.map_map,
    heach, ← List.flatMap_def, ← recodeEach]

/-- What comes back as it was is what was there, but for the rest that was dropped. -/
theorem convertPacked_recodeEach_back
    (hpieces : ∀ piece ∈ wholeElements source.size raw,
      ((Element.decode source order piece).convert middle).convert source =
        Element.decode source order piece) :
    convertPacked middle source order (recodeEach source middle order raw) =
      .ok (wholeBytes source.size raw) := by
  rw [convertPacked_recodeEach, recodeEach_self]
  intro piece hpiece
  rw [hpieces piece hpiece, Element.convert_self]

end

/-- **Widening loses nothing.**  Integers of four bytes come back from those of eight and from
double precision, and single-precision numbers from double precision, as the whole elements that
they were.  And it makes no difference to integers whether they become wider ones straight away or
through double precision. -/
theorem widening_loses_nothing (order : ByteOrder) (raw : Bytes) :
    ∃ words doubles widened,
      convertPacked .u32 .u64 order raw = .ok words ∧
      convertPacked .u32 .f64 order raw = .ok doubles ∧
      convertPacked .f32 .f64 order raw = .ok widened ∧
      convertPacked .u64 .u32 order words = .ok (wholeBytes 4 raw) ∧
      convertPacked .f64 .u32 order doubles = .ok (wholeBytes 4 raw) ∧
      ((∀ piece ∈ wholeElements 4 raw,
          binary32.meaning (Element.decode .f32 order piece).toNat ≠ .notANumber) →
        convertPacked .f64 .f32 order widened = .ok (wholeBytes 4 raw)) ∧
      convertPacked .f64 .u64 order doubles = .ok words := by
  have hdouble : ∀ e : Element .u32, (e.convert .f64).value = e.value := by
    intro e
    exact e.value_convert_of_bits rfl rfl (by decide)
  refine ⟨_, _, _, convertPacked_eq_ok .u32 .u64 order raw, convertPacked_eq_ok .u32 .f64 order raw,
    convertPacked_eq_ok .f32 .f64 order raw, ?_, ?_, ?_, ?_⟩
  · apply convertPacked_recodeEach_back
    intro piece _
    rw [Element.convert_convert_of_integers _ rfl rfl rfl (by decide), Element.convert_self]
  · apply convertPacked_recodeEach_back
    intro piece _
    rw [Element.convert_convert_of_value_eq _ rfl rfl rfl (by decide) (hdouble _),
      Element.convert_self]
  · intro hnumbers
    apply convertPacked_recodeEach_back
    intro piece hpiece
    exact Element.convert_convert_of_fitsIn _ rfl rfl FloatFormat.binary32_fitsIn_binary64
      (hnumbers piece hpiece)
  · apply convertPacked_recodeEach
    intro piece _
    exact Element.convert_convert_of_value_eq _ rfl rfl rfl (by decide) (hdouble _)

/-- The greatest single-precision number and the negative one nearest to zero, with a byte left
over. -/
theorem widening_loses_nothing_bigEndian :
    let raw : Bytes := [0x7f, 0x7f, 0xff, 0xff, 0x80, 0, 0, 1, 9]
    let widened : Bytes := [0x47, 0xef, 0xff, 0xff, 0xe0, 0, 0, 0, 0xb6, 0xa0, 0, 0, 0, 0, 0, 0]
    (∀ piece ∈ wholeElements 4 raw,
        binary32.meaning (Element.decode .f32 .big piece).toNat ≠ .notANumber) ∧
      convertPacked .f32 .f64 .big raw = .ok widened ∧
      convertPacked .f64 .f32 .big widened = .ok [0x7f, 0x7f, 0xff, 0xff, 0x80, 0, 0, 1] := by
  intro raw widened
  have hnumbers : ∀ piece ∈ wholeElements 4 raw,
      binary32.meaning (Element.decode .f32 .big piece).toNat ≠ .notANumber := by
    simp only [ne_eq, FloatFormat.binary32_standard.meaning_eq_notANumber_iff]
    decide +kernel
  have hwidened : convertPacked .f32 .f64 .big raw = .ok widened := by decide +kernel
  have hwhole : wholeBytes 4 raw = [0x7f, 0x7f, 0xff, 0xff, 0x80, 0, 0, 1] := by decide
  obtain ⟨-, -, doubles, -, -, hdoubles, -, -, hback, -⟩ := widening_loses_nothing .big raw
  cases hdoubles.symm.trans hwidened
  exact ⟨hnumbers, hwidened, hwhole ▸ hback hnumbers⟩

end Snapshot
