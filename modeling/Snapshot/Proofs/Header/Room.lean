import Snapshot.Proofs.Header.Claims
import Snapshot.Proofs.Header.Regular

/-!
# Room for the columns

Once the section is decoded, the only question left is whether the file has room
for the columns.  The lengths of the columns are clamped one by one and their sum
is clamped again, and yet the answer is that of exact arithmetic
(`Header.decode_of_section`): the section has at least one byte, so where
something was clamped even the longest file would be too short.
-/

namespace Snapshot

open Decoder

/-! ## Clamped sums -/

/-- Behind at least one byte, a clamped size fits where the exact one does. -/
theorem add_clamp_le_iff {a b limit : Nat} (ha : 0 < a) (hlimit : limit ≤ sizeLimit) :
    a + clamp b ≤ limit ↔ a + b ≤ limit := by
  unfold clamp
  omega

/-- Columns that can be addressed claim what they take. -/
theorem Layout.Addressable.columnsEnd_eq_add_dataSize {layout : Layout} (h : layout.Addressable) :
    layout.columnsEnd = layout.dataStart + layout.dataSize := by
  have hextent : layout.extentBefore layout.columns ≤ sizeLimit :=
    Nat.le_trans (Nat.le_add_left _ layout.dataStart) h
  rw [h.columnsEnd_eq, dataSize_eq_clamp, clamp_of_le hextent]

/-! ## The section by itself -/

/-- The header section at the start of a stream, and its length. -/
def Section.decode (stream : Stream) (length : Nat) : Except Fault (Section × Nat) :=
  (decodeSection.run ⟨stream.rewind.unread, 0, length⟩).map fun (s, cursor) => (s, cursor.claimed)

theorem Section.run_of_decode {stream : Stream} {length : Nat} {s : Section} {start : Nat}
    (h : Section.decode stream length = .ok (s, start)) :
    ∃ after : Cursor, decodeSection.run ⟨stream.contents, 0, length⟩ = .ok (s, after) ∧
      after.claimed = start ∧ after.limit = length ∧ start = s.encode.length ∧ s.Proper := by
  change Except.map _ (decodeSection.run ⟨stream.contents, 0, length⟩) = _ at h
  cases hrun : decodeSection.run ⟨stream.contents, 0, length⟩ with
  | error fault =>
      rw [hrun] at h
      cases h
  | ok pair =>
      rw [hrun] at h
      cases h
      obtain ⟨hproper, hpasses⟩ := (decodeSection_decodes _ (Nat.zero_le _) _ _).mp hrun
      exact ⟨pair.2, rfl, rfl, hpasses.limit_eq, hpasses.claimed_eq.trans (Nat.zero_add _), hproper⟩

theorem Section.decode_of_eq_append {stream : Stream} {length : Nat} {s : Section}
    (hproper : s.Proper) {rest : Bytes} (hcontents : stream.contents = s.encode ++ rest)
    (hlength : s.encode.length ≤ length) :
    Section.decode stream length = .ok (s, s.encode.length) := by
  have hpasses : Cursor.Passes ⟨stream.contents, 0, length⟩ s.encode s.encode.length
      ⟨rest, s.encode.length, length⟩ :=
    ⟨hcontents, (Nat.zero_add _).symm, rfl, hlength⟩
  have hrun := (decodeSection_decodes _ (Nat.zero_le _) _ _).mpr ⟨hproper, hpasses⟩
  show Except.map _ (decodeSection.run ⟨stream.contents, 0, length⟩) = _
  rw [hrun]
  rfl

/-- Behind the section only the room for the columns is asked for. -/
theorem decodeHeader_run_of_section {before after : Cursor} {s : Section}
    (h : decodeSection.run before = .ok (s, after)) :
    decodeHeader.run before =
      (claim (s.toHeader after.claimed).layout.dataSize >>= fun _ =>
        pure (s.toHeader after.claimed)).run after := by
  unfold decodeHeader
  rw [StateT.run_bind, h]
  rfl

namespace Header

variable {stream : Stream} {length : Nat} {s : Section} {start : Nat}

/-- **The room is measured exactly.** -/
theorem decode_of_section (hlength : length ≤ sizeLimit)
    (hsection : Section.decode stream length = .ok (s, start)) :
    decode stream length =
      if start + (s.toHeader start).layout.extentBefore s.names.length ≤ length then
        .ok (s.toHeader start)
      else
        .error (.truncated (clamp (start + (s.toHeader start).layout.extentBefore s.names.length))
          length) := by
  obtain ⟨after, hrun, rfl, hlimit, hstart, hproper⟩ := Section.run_of_decode hsection
  have hpositive : 0 < after.claimed := hstart ▸ hproper.length_pos
  have hsize : (s.toHeader after.claimed).layout.dataSize =
      clamp ((s.toHeader after.claimed).layout.extentBefore s.names.length) :=
    Layout.dataSize_eq_clamp
  show Except.map Prod.fst (decodeHeader.run ⟨stream.contents, 0, length⟩) = _
  rw [decodeHeader_run_of_section hrun, run_claim_bind, hsize, clamp_add_clamp, hlimit]
  by_cases hroom :
      after.claimed + (s.toHeader after.claimed).layout.extentBefore s.names.length ≤ length
  · rw [if_pos hroom, if_pos ((add_clamp_le_iff hpositive hlength).mpr hroom)]
    rfl
  · rw [if_neg hroom, if_neg (mt (add_clamp_le_iff hpositive hlength).mp hroom)]
    rfl

end Header

end Snapshot
