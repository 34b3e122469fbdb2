import Snapshot.Proofs.Number.Rounding

/-!
# Numbers that are not rounded

Encoding rounds, but not what is a number of the layout already.  A place in a binade is a whole
number of the spacings around its units, so nothing is left over when the units of a pattern are
divided again (`FloatFormat.unclamped_unitsOf`).  Every pattern of a number is therefore encoded
again from what it is decoded to, its sign included, and so are the infinities
(`FloatFormat.encode_decode`).  Only what is not a number has many patterns for one meaning.

Natural numbers of no more bits than the layout keeps are not rounded either
(`FloatFormat.Standard.decode_ofNat`).
-/

namespace Snapshot

namespace FloatFormat

variable {format : FloatFormat}

/-! ## Patterns -/

/-- The spacing around the units of a place is that of its binade. -/
theorem spacing_of_place {step place : ℕ} (hplace : place < 2 * format.binade)
    (hstep : step = 0 ∨ format.binade ≤ place) :
    format.spacing (place * 2 ^ (format.quantum + step)) = format.quantum + step := by
  apply Nat.le_antisymm (spacing_le_of_lt hplace (Nat.le_add_right _ _))
  rcases hstep with rfl | hnormal
  · exact quantum_le_spacing _
  · -- The leading one of the place is that of its binade.
    have hunits : 2 ^ (format.fractionBits + (format.quantum + step)) ≤
        place * 2 ^ (format.quantum + step) := by
      rw [Nat.pow_add, ← binade_eq]
      exact Nat.mul_le_mul_right _ hnormal
    have hpos : place * 2 ^ (format.quantum + step) ≠ 0 :=
      ((Nat.two_pow_pos _).trans_le hunits).ne'
    have hlog := (Nat.le_log2 hpos).mpr hunits
    unfold spacing
    omega

/-- The units of a pattern lead back to the pattern. -/
@[simp] theorem unclamped_unitsOf (pattern : ℕ) :
    format.unclamped (format.unitsOf pattern) = pattern := by
  obtain ⟨step, place, rfl, hplace, hstep⟩ := format.exists_binade pattern
  rw [unitsOf_add hplace.le hstep, unclamped, rounded, spacing_of_place hplace hstep,
    roundQuotient_mul (Nat.two_pow_pos _), Nat.add_sub_cancel_left]

/-- A pattern is one without sign under its sign. -/
theorem exists_eq_signBit_add {pattern : ℕ} (hpattern : pattern < 2 * format.signBit true) :
    ∃ negative, ∃ unsigned < format.signBit true,
      pattern = format.signBit negative + unsigned := by
  rcases Nat.lt_or_ge pattern (format.signBit true) with hpositive | hnegative
  · exact ⟨false, pattern, hpositive, (Nat.zero_add pattern).symm⟩
  · exact ⟨true, pattern - format.signBit true, by omega, by omega⟩

/-- **What was decoded is encoded again**, unless it is not a number. -/
theorem encode_decode {pattern : ℕ} (hpattern : pattern < 2 * format.signBit true)
    (hnumber : format.decode pattern ≠ .notANumber) :
    format.encode (format.decode pattern) = pattern := by
  obtain ⟨negative, unsigned, hunsigned, rfl⟩ := exists_eq_signBit_add hpattern
  rw [decode_signBit_add negative hunsigned] at hnumber ⊢
  split_ifs at hnumber ⊢ with hfinite hinfinite
  · rw [encode, magnitude_eq, unclamped_unitsOf, Nat.min_eq_right hfinite.le]
  · rw [encode, hinfinite]
  · exact absurd rfl hnumber

/-! ## Natural numbers -/

/-- A natural number of no more bits than the layout keeps is encoded exactly. -/
theorem Standard.decode_ofNat (h : format.Standard) (hbias : format.fractionBits ≤ format.bias)
    {n : ℕ} (hn : n < 2 * format.binade) :
    format.decode (format.ofNat n) = .finite false (n * unitsPerOne) := by
  have hunits := h.units
  have htop := h.topExponent_eq_bias
  have hquantum : format.quantum ≤ unitExponent := by
    have := h.two_le_topExponent
    unfold unitExponent
    omega
  have hspacing : unitExponent ≤ format.topSpacing := by
    unfold unitExponent topSpacing
    omega
  rw [ofNat, unitsPerOne_eq, h.decode_encode_of_fits false hn hquantum hspacing]

end FloatFormat

/-- A natural number has no fraction to drop. -/
theorem FloatValue.truncate_mul_unitsPerOne (greatest n : ℕ) :
    (finite false (n * unitsPerOne)).truncate greatest = min greatest n := by
  simp only [truncate, Bool.false_eq_true, if_false, Nat.mul_div_cancel _ unitsPerOne_pos]

end Snapshot
