import Snapshot.Proofs.Header.Section

/-!
# The header section is canonical

`Header.decode_eq_ok_iff` is the one statement through which decoded headers are
opened: a header is decoded exactly where a proper section stands at the start of
the file and the stated length has room for it and for the columns.

A header keeps everything that its section holds (`Section.toSection_toHeader`),
so writing the header down again gives back the bytes that it was read from.
Nothing in the section is ignored and nothing can be spelled in two ways.
-/

namespace Snapshot

/-! ## What a header is decoded from -/

theorem decodeHeader_run_eq_ok_iff {before after : Cursor} (hfits : before.claimed ≤ before.limit)
    {h : Header} :
    decodeHeader.run before = .ok (h, after) ↔
      ∃ s : Section, s.Proper ∧ h = s.toHeader (before.claimed + s.encode.length) ∧
        before.Passes s.encode (s.encode.length + h.layout.dataSize) after := by
  unfold decodeHeader
  simp only [Decoder.run_bind_eq_ok_iff]
  constructor
  · intro h
    rcases h with ⟨s, middle, hsection, cursor, again, hget, ⟨⟩, final, hclaim, hpure⟩
    obtain ⟨hproper, hpasses⟩ := (decodeSection_decodes before hfits s middle).mp hsection
    cases hget
    obtain ⟨-, hroom⟩ := (Decoder.Decodes.claim _ middle hpasses.fits _ _).mp hclaim
    cases hpure
    have hwhole := hpasses.join hroom
    rw [List.append_nil] at hwhole
    exact ⟨s, hproper, by rw [hpasses.claimed_eq], hwhole⟩
  · intro h
    rcases h with ⟨s, hproper, rfl, hwhole⟩
    have hparts : before.Passes (s.encode ++ [])
        (s.encode.length + (s.toHeader (before.claimed + s.encode.length)).layout.dataSize) after := by
      rwa [List.append_nil]
    -- The section ends where the claim for the columns is made.
    obtain ⟨middle, hpasses, hroom⟩ := hparts.part
    have hsection := (decodeSection_decodes before hfits s middle).mpr ⟨hproper, hpasses⟩
    refine ⟨s, middle, hsection, middle, middle, rfl, (), after, ?_, ?_⟩
    · rw [hpasses.claimed_eq]
      exact (Decoder.Decodes.claim _ middle hpasses.fits _ _).mpr ⟨trivial, hroom⟩
    · rw [hpasses.claimed_eq]
      rfl

namespace Header

theorem decode_eq_ok_iff_run {stream : Stream} {length : Nat} {h : Header} :
    decode stream length = .ok h ↔
      ∃ after, decodeHeader.run ⟨stream.contents, 0, length⟩ = .ok (h, after) := by
  show Except.map Prod.fst (decodeHeader.run ⟨stream.contents, 0, length⟩) = .ok h ↔ _
  cases decodeHeader.run ⟨stream.contents, 0, length⟩ with
  | error fault => simp [Except.map]
  | ok pair => simp [Except.map, Prod.ext_iff]

theorem decode_eq_error_iff_run {stream : Stream} {length : Nat} {fault : Fault} :
    decode stream length = .error fault ↔
      decodeHeader.run ⟨stream.contents, 0, length⟩ = .error fault := by
  show Except.map Prod.fst (decodeHeader.run ⟨stream.contents, 0, length⟩) = .error fault ↔ _
  cases decodeHeader.run ⟨stream.contents, 0, length⟩ with
  | error other => simp [Except.map]
  | ok pair => simp [Except.map]

/-- **What is decoded.**  The section stands at the start, and the stated length has room for the
section and the columns. -/
theorem decode_eq_ok_iff {stream : Stream} {length : Nat} {h : Header} :
    decode stream length = .ok h ↔
      ∃ s : Section, s.Proper ∧ h = s.toHeader s.encode.length ∧
        (∃ rest, stream.contents = s.encode ++ rest) ∧
        s.encode.length + h.layout.dataSize ≤ length := by
  rw [decode_eq_ok_iff_run]
  constructor
  · intro h
    rcases h with ⟨after, h⟩
    obtain ⟨s, hproper, rfl, hrest, hclaimed, hlimit, hfits⟩ :=
      (decodeHeader_run_eq_ok_iff (Nat.zero_le _)).mp h
    dsimp only at hrest hclaimed hlimit
    rw [Nat.zero_add] at hclaimed
    rw [hclaimed, hlimit] at hfits
    exact ⟨s, hproper, by rw [Nat.zero_add], ⟨after.rest, hrest⟩, hfits⟩
  · intro h
    rcases h with ⟨s, hproper, rfl, ⟨rest, hrest⟩, hroom⟩
    exact ⟨⟨rest, _, length⟩, (decodeHeader_run_eq_ok_iff (Nat.zero_le _)).mpr
      ⟨s, hproper, by rw [Nat.zero_add], hrest, (Nat.zero_add _).symm, rfl, hroom⟩⟩

theorem ofBytes_eq_ok_iff {bytes : Bytes} {h : Header} :
    ofBytes bytes = .ok h ↔
      ∃ s : Section, s.Proper ∧ h = s.toHeader s.encode.length ∧
        ∃ rest, bytes = s.encode ++ rest ∧ h.layout.dataSize ≤ rest.length := by
  unfold ofBytes
  rw [decode_eq_ok_iff]
  constructor
  · intro h
    rcases h with ⟨s, hproper, hheader, ⟨rest, rfl⟩, hroom⟩
    rw [List.length_append] at hroom
    exact ⟨s, hproper, hheader, rest, rfl, by omega⟩
  · intro h
    rcases h with ⟨s, hproper, hheader, rest, rfl, hroom⟩
    refine ⟨s, hproper, hheader, ⟨rest, rfl⟩, ?_⟩
    rw [List.length_append]
    omega

end Header

/-! ## Nothing is lost -/

theorem ofNat_toNat_toInt {n : Int64} (h : 0 ≤ n) : Int64.ofNat n.toInt.toNat = n := by
  rw [Int64.toNat_toInt, Int64.ofNat_toNatClampNeg n h]

/-- The section in which a header is stored is the one that it was made from. -/
theorem Section.toSection_toHeader {s : Section} (hproper : s.Proper) (length : Nat) :
    (s.toHeader length).toSection = s := by
  obtain ⟨hcount, htotal⟩ := hproper.counted
  simp only [Section.toHeader, Header.toSection, ofNat_toNat_toInt hcount,
    ofNat_toNat_toInt (Int64.le_trans hcount htotal)]

namespace Header

/-- **The header section is canonical.**  Writing a decoded header down gives the section that it
was read from, so files with the same header have the same section. -/
theorem encode_toSection_eq_take {bytes : Bytes} {h : Header} (hdecode : ofBytes bytes = .ok h) :
    h.layout.dataStart ≤ bytes.length ∧
      h.toSection.encode = bytes.take h.layout.dataStart ∧
        ∀ other, ofBytes other = .ok h →
          other.take h.layout.dataStart = bytes.take h.layout.dataStart := by
  have hsection : ∀ {bytes : Bytes}, ofBytes bytes = .ok h →
      h.layout.dataStart ≤ bytes.length ∧
        h.toSection.encode = bytes.take h.layout.dataStart := by
    intro bytes hdecode
    obtain ⟨s, hproper, rfl, rest, rfl, -⟩ := ofBytes_eq_ok_iff.mp hdecode
    have hstart : (s.toHeader s.encode.length).layout.dataStart = s.encode.length := rfl
    rw [s.toSection_toHeader hproper, hstart, List.length_append, List.take_left]
    exact ⟨Nat.le_add_right _ _, rfl⟩
  obtain ⟨hlength, hencode⟩ := hsection hdecode
  exact ⟨hlength, hencode, fun other hother => (hsection hother).2.symm.trans hencode⟩

/-- A section of the first version, with the most significant byte first, for one particle of
eight. -/
def bigEndianSection : Section where
  version := 1
  order := .big
  preamble := .ofWords 1 [1, 8, 1, 1, 1, 7, 0, 0, 0, 0, 0, 0]
  native := [0xff, 0]
  names := ["x", "id"]
  types := [.f32, .u64]
  widths := [3, 1]

theorem encode_toSection_bigEndian :
    ofBytes (bigEndianSection.encode ++ List.replicate 21 0x3f) =
        .ok (bigEndianSection.toHeader 131) ∧
      (bigEndianSection.toHeader 131).toSection.encode =
        (bigEndianSection.encode ++ List.replicate 21 0x3f).take 131 := by
  have hdecode : ofBytes (bigEndianSection.encode ++ List.replicate 21 0x3f) =
      .ok (bigEndianSection.toHeader 131) := by decide +kernel
  exact ⟨hdecode, (encode_toSection_eq_take hdecode).2.1⟩

end Header

end Snapshot
