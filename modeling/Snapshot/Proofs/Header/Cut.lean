import Snapshot.Proofs.Header.Room

/-!
# Files that are cut short

A header depends on the bytes of its own section and on the length of the file,
and on nothing else.  Where the section is there and the file has room for the
columns, the header is the same whatever the columns hold and whatever comes
behind them.

Where the file ends too early it is always said to be truncated
(`Header.ofBytes_of_prefix`).  Two reasons are needed for this.  If the section is
there, then the room for the columns is missing, and the end of the columns is
what is asked for.  If the cut goes through the section, then the decoder goes the
same way as on the whole file, until a claim is refused that was granted there.
That claim is within the columns' end, and no read can fail ahead of it.
-/

namespace Snapshot

open Decoder

namespace Header

/-- The bytes are turned down for being too few: a file that they are the start of has at least
`needed` bytes, which is not more than `last`. -/
structure CutShort (bytes : Bytes) (needed last : Nat) : Prop where
  ofBytes_eq : ofBytes bytes = .error (.truncated needed bytes.length)
  length_lt : bytes.length < needed
  needed_le : needed ≤ last

variable {bytes other : Bytes} {h : Header}

/-! ## A cut behind the section -/

/-- The section of a header stands at the start of all files that begin with the same bytes. -/
theorem exists_section_of_ofBytes (hdecode : ofBytes bytes = .ok h)
    (hstart : other.take h.layout.dataStart <+: bytes)
    (hlength : h.layout.dataStart ≤ other.length) :
    ∃ s : Section, s.Proper ∧ h = s.toHeader s.encode.length ∧ ∃ rest, other = s.encode ++ rest := by
  obtain ⟨s, hproper, rfl, rest, rfl, -⟩ := ofBytes_eq_ok_iff.mp hdecode
  change s.encode.length ≤ other.length at hlength
  change other.take s.encode.length <+: s.encode ++ rest at hstart
  have hencode : other.take s.encode.length = s.encode := by
    rw [List.prefix_iff_eq_take, List.length_take_of_le hlength, List.take_left] at hstart
    exact hstart
  refine ⟨s, hproper, rfl, other.drop s.encode.length, ?_⟩
  calc other
      = other.take s.encode.length ++ other.drop s.encode.length := (List.take_append_drop _ _).symm
    _ = s.encode ++ other.drop s.encode.length := by rw [hencode]

/-- The end of the columns is what a file is asked for that has their section. -/
theorem cutShort_of_section {s : Section} (hproper : s.Proper)
    (haddressable : (s.toHeader s.encode.length).layout.Addressable) {rest : Bytes}
    (hcut : (s.encode ++ rest).length < (s.toHeader s.encode.length).layout.columnsEnd) :
    CutShort (s.encode ++ rest) (s.toHeader s.encode.length).layout.columnsEnd
      (s.toHeader s.encode.length).layout.columnsEnd := by
  have hend := haddressable.columnsEnd_eq
  have hfits : (s.toHeader s.encode.length).layout.columnsEnd ≤ sizeLimit :=
    hend ▸ haddressable
  have hsection : Section.decode ⟨s.encode ++ rest, 0⟩ (s.encode ++ rest).length =
      .ok (s, s.encode.length) :=
    Section.decode_of_eq_append hproper rfl (by simp)
  have hdecode := decode_of_section (Nat.le_trans (Nat.le_of_lt hcut) hfits) hsection
  refine ⟨?_, hcut, Nat.le_refl _⟩
  change decode ⟨s.encode ++ rest, 0⟩ (s.encode ++ rest).length = _
  change _ = s.encode.length + (s.toHeader s.encode.length).layout.extentBefore s.names.length at hend
  rw [hdecode, ← hend, if_neg (Nat.not_le.mpr hcut), clamp_of_le hfits]

/-! ## A cut through the section -/

/-- The claims for a header reach to the end of its columns. -/
theorem decodeHeader_run_of_ofBytes (hsize : bytes.length ≤ sizeLimit)
    (hdecode : ofBytes bytes = .ok h) :
    ∃ after : Cursor, decodeHeader.run ⟨bytes, 0, bytes.length⟩ = .ok (h, after) ∧
      after.claimed = h.layout.columnsEnd := by
  have hend := (regular_of_ofBytes hsize hdecode).1.addressable.columnsEnd_eq_add_dataSize
  obtain ⟨after, hrun⟩ := decode_eq_ok_iff_run.mp hdecode
  obtain ⟨s, -, hheader, hpasses⟩ := (decodeHeader_run_eq_ok_iff (Nat.zero_le _)).mp hrun
  have hstart : h.layout.dataStart = s.encode.length := by
    rw [hheader]
    exact Nat.zero_add _
  refine ⟨after, hrun, ?_⟩
  calc after.claimed
      = s.encode.length + h.layout.dataSize := hpasses.claimed_eq.trans (Nat.zero_add _)
    _ = h.layout.columnsEnd := by rw [hend, hstart]

/-- The start of a file that ends ahead of the columns' end is cut short. -/
theorem cutShort_of_append {rest : Bytes} (hsize : (bytes ++ rest).length ≤ sizeLimit)
    (hdecode : ofBytes (bytes ++ rest) = .ok h) (hcut : bytes.length < h.layout.columnsEnd) :
    ∃ needed, CutShort bytes needed h.layout.columnsEnd := by
  obtain ⟨after, hwhole, hclaimed⟩ := decodeHeader_run_of_ofBytes hsize hdecode
  obtain ⟨hregular, hinside⟩ := regular_of_ofBytes hsize hdecode
  have hend : h.layout.columnsEnd ≤ sizeLimit := by
    rw [hregular.addressable.columnsEnd_eq]
    exact Nat.le_trans hinside hsize
  have hextended := decodeHeader_extended bytes rest
  rw [hwhole] at hextended
  generalize hrun : decodeHeader.run ⟨bytes, 0, bytes.length⟩ = result at hextended
  cases hextended with
  | decoded a low =>
      -- All claims were granted, the last one too, and it reaches past the bytes at hand.
      obtain ⟨s, -, -, hpasses⟩ := (decodeHeader_run_eq_ok_iff (Nat.zero_le _)).mp hrun
      have hfits : low.claimed ≤ bytes.length := Nat.le_trans hpasses.fits (Nat.le_of_eq hpasses.limit_eq)
      have hreach : low.claimed = h.layout.columnsEnd := hclaimed
      omega
  | @refused reach _ hrefused =>
      have hreach : reach ≤ h.layout.columnsEnd := hclaimed ▸ hrefused.needed h after rfl
      refine ⟨reach, decode_eq_error_iff_run.mpr ?_, hrefused.limit_lt, hreach⟩
      rw [hrun, clamp_of_le (Nat.le_trans hreach hend)]
  | ended hfault =>
      rw [isShortRead_eq_false_of_decodeHeader hrun] at hfault
      cases hfault

/-! ## Every cut -/

/-- **A header depends on its section and on the length only.**  Bytes that begin like a file, up to
the end of its section as far as they reach, have the same header if they reach to the end of the
columns.  Otherwise they are truncated, and what they lack is part of what that header asks for.  So
a file without anything behind its columns is truncated wherever it is cut. -/
theorem ofBytes_of_prefix (hsize : bytes.length ≤ sizeLimit) (hdecode : ofBytes bytes = .ok h) :
    (∀ other : Bytes, other.take h.layout.dataStart <+: bytes →
      (h.layout.columnsEnd ≤ other.length → ofBytes other = .ok h) ∧
      (other.length < h.layout.columnsEnd →
        ∃ needed, CutShort other needed h.layout.columnsEnd ∧
          (h.layout.dataStart ≤ other.length → needed = h.layout.columnsEnd))) ∧
    (bytes.length = h.layout.columnsEnd → ∀ size, size < bytes.length →
      ∃ needed, ofBytes (bytes.take size) = .error (.truncated needed size)) := by
  have haddressable := (regular_of_ofBytes hsize hdecode).1.addressable
  have hend := haddressable.columnsEnd_eq_add_dataSize
  have hothers : ∀ other : Bytes, other.take h.layout.dataStart <+: bytes →
      (h.layout.columnsEnd ≤ other.length → ofBytes other = .ok h) ∧
      (other.length < h.layout.columnsEnd →
        ∃ needed, CutShort other needed h.layout.columnsEnd ∧
          (h.layout.dataStart ≤ other.length → needed = h.layout.columnsEnd)) := by
    intro other hstart
    rcases Nat.lt_or_ge other.length h.layout.dataStart with hshort | hlong
    · -- The section is not there as a whole, so all that is there is the start of the file.
      rw [List.take_of_length_le (Nat.le_of_lt hshort)] at hstart
      obtain ⟨rest, rfl⟩ := hstart
      refine ⟨fun hroom => by omega, fun hcut => ?_⟩
      obtain ⟨needed, hneeded⟩ := cutShort_of_append hsize hdecode hcut
      exact ⟨needed, hneeded, fun hlong => by omega⟩
    · obtain ⟨s, hproper, rfl, rest, rfl⟩ := exists_section_of_ofBytes hdecode hstart hlong
      refine ⟨fun hroom => ?_, fun hcut => ?_⟩
      · rw [hend, List.length_append] at hroom
        exact ofBytes_eq_ok_iff.mpr
          ⟨s, hproper, rfl, rest, rfl, Nat.le_of_add_le_add_left hroom⟩
      · exact ⟨_, cutShort_of_section hproper haddressable hcut, fun _ => rfl⟩
  refine ⟨hothers, fun hwhole size hcut => ?_⟩
  have hlength : (bytes.take size).length = size := List.length_take_of_le (Nat.le_of_lt hcut)
  have hstart := (List.take_prefix h.layout.dataStart (bytes.take size)).trans
    (List.take_prefix size bytes)
  have hless : (bytes.take size).length < h.layout.columnsEnd := by
    rw [hlength, ← hwhole]
    exact hcut
  obtain ⟨needed, hneeded, -⟩ := (hothers _ hstart).2 hless
  refine ⟨needed, ?_⟩
  rw [hneeded.ofBytes_eq, hlength]

theorem ofBytes_of_prefix_bigEndian :
    let file := bigEndianSection.encode ++ List.replicate 20 0x3f
    file.length ≤ sizeLimit ∧ ofBytes file = .ok (bigEndianSection.toHeader 131) ∧
      -- Other columns, and five bytes behind them.
      ofBytes (bigEndianSection.encode ++ List.replicate 25 0) =
        .ok (bigEndianSection.toHeader 131) ∧
      -- A cut through the columns, and one through the table.
      ofBytes (bigEndianSection.encode ++ List.replicate 9 0) = .error (.truncated 151 140) ∧
      ∃ needed, ofBytes (file.take 125) = .error (.truncated needed 125) := by
  intro file
  have hsize : file.length ≤ sizeLimit := by decide +kernel
  have hdecode : ofBytes file = .ok (bigEndianSection.toHeader 131) := by decide +kernel
  obtain ⟨hothers, hcuts⟩ := ofBytes_of_prefix hsize hdecode
  obtain ⟨needed, hneeded, hend⟩ :=
    (hothers (bigEndianSection.encode ++ List.replicate 9 0) (by decide +kernel)).2 (by decide +kernel)
  have hdecoded := (hothers (bigEndianSection.encode ++ List.replicate 25 0)
    (by decide +kernel)).1 (by decide +kernel)
  have hcolumns : needed = 151 := hend (by decide +kernel)
  refine ⟨hsize, hdecode, hdecoded, hcolumns ▸ hneeded.ofBytes_eq, ?_⟩
  exact hcuts (by decide +kernel) 125 (by decide +kernel)

end Header

end Snapshot
