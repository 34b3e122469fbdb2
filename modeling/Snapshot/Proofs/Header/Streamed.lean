import Snapshot.Proofs.Header.Room

/-!
# Headers of streams

A stream of bytes goes on for as long as it does, and the length that a file is
said to have is another matter.  The decoder holds its claims against the length
and reads from the stream, and the header is that of the bytes alone
(`Header.streamed_decode`).

A stream with enough bytes counts up to the stated length, and no read of it
fails.  One with too few counts as if it had been filled up, no matter with what:
behind the section nothing is read, and all that is asked for is room for the
columns.  Only a stream that ends in the section itself makes a read fail.
-/

namespace Snapshot

open Decoder

/-- More bytes behind those at hand do not change what is decoded, unless a read failed for want of
them. -/
theorem Decoder.ClaimsAhead.map_run_extend {α : Type} {granted : Nat} {decoder : Decoder α}
    (h : decoder.ClaimsAhead granted) (before : Cursor) (tail : Bytes) :
    (∃ fault, decoder.run before = .error fault ∧ fault.isShortRead) ∨
      (decoder.run before).map Prod.fst = (decoder.run (before.extend tail 0)).map Prod.fst := by
  have hextended := h.extended before tail 0
  generalize decoder.run before = low at hextended
  generalize decoder.run (before.extend tail 0) = high at hextended
  cases hextended with
  | decoded a after => exact .inr rfl
  | fault hfault => exact .inr rfl
  | refused hrefused =>
      -- The limit is the same, so the claim is refused again.
      rw [hrefused.still hrefused.limit_lt]
      exact .inr rfl
  | @ended fault hfault => exact .inl ⟨fault, rfl, hfault⟩

/-! ## Where reads fail -/

/-- The header section goes on behind the bytes that are there. -/
def Section.RunsOut (contents : Bytes) (length : Nat) : Prop :=
  ∃ needed, Section.decode ⟨contents, 0⟩ contents.length =
      .error (.truncated needed contents.length) ∧
    contents.length < needed ∧ needed ≤ length

/-- A read that failed was one of the section. -/
theorem decodeSection_run_of_isShortRead {before : Cursor} {fault : Fault}
    (hrun : decodeHeader.run before = .error fault) (hshort : fault.isShortRead) :
    decodeSection.run before = .error fault := by
  cases hsection : decodeSection.run before with
  | ok pair =>
      rw [decodeHeader_run_of_section hsection, run_claim_bind] at hrun
      split_ifs at hrun
      · cases hrun
      · cases hrun
        cases hshort
  | error other =>
      unfold decodeHeader at hrun
      rw [StateT.run_bind, hsection] at hrun
      cases hrun
      rfl

/-- Held against the length of the bytes that are there, the section is found to be cut short where
a read would fail. -/
theorem Section.runsOut_of_isShortRead {contents : Bytes} {length : Nat}
    (hless : contents.length ≤ length) (hlength : length ≤ sizeLimit) {fault : Fault}
    (hrun : decodeSection.run ⟨contents, 0, length⟩ = .error fault) (hshort : fault.isShortRead) :
    Section.RunsOut contents length := by
  have hextended := decodeSection_claimsAhead.extended ⟨contents, 0, contents.length⟩ []
    (length - contents.length)
  have hcursor : Cursor.extend ⟨contents, 0, contents.length⟩ [] (length - contents.length) =
      ⟨contents, 0, length⟩ := by
    simp [Cursor.extend, Nat.add_sub_of_le hless]
  rw [hcursor, hrun] at hextended
  generalize hbase : decodeSection.run ⟨contents, 0, contents.length⟩ = base at hextended
  cases hextended with
  | fault hfault =>
      rw [Fault.isShortRead_eq_false hfault] at hshort
      cases hshort
  | @refused reach _ hrefused =>
      have hreach : reach ≤ length := by
        by_contra hbeyond
        have hlimit : contents.length + (length - contents.length) < reach := by omega
        cases hrefused.still hlimit
        cases hshort
      refine ⟨reach, ?_, hrefused.limit_lt, hreach⟩
      show Except.map _ (decodeSection.run ⟨contents, 0, contents.length⟩) = _
      rw [hbase, clamp_of_le (Nat.le_trans hreach hlength)]
      rfl
  | ended hfault =>
      have hread := decodeSection_claimsAhead.isShortRead_eq_false
        (Cursor.Backed.start (Nat.le_refl _)) hbase
      rw [hread] at hfault
      cases hfault

/-! ## The header of a stream -/

namespace Header

/-- The header of a stream, of a file that is said to have the given length, is the header of an
array of bytes. -/
structure Streamed (contents : Bytes) (length : Nat) (streamed : Except Fault Header) : Prop where
  /-- A stream with enough bytes counts up to the stated length. -/
  eq_ofBytes_take : length ≤ contents.length → streamed = ofBytes (contents.take length)
  /-- No read of a stream with enough bytes fails. -/
  isShortRead_eq_false : length ≤ contents.length → ∀ fault, streamed = .error fault →
    fault.isShortRead = false
  /-- A stream with too few bytes counts as if it was filled up, whatever with.  If a read failed
  instead, then the stream ended in the header section. -/
  runsOut_or_eq : contents.length < length →
    ((∃ fault, streamed = .error fault ∧ fault.isShortRead) ∧ Section.RunsOut contents length) ∨
      ∀ pad, contents.length + pad.length = length → streamed = ofBytes (contents ++ pad)

variable {contents : Bytes} {length : Nat}

theorem decode_of_le (h : length ≤ contents.length) (place : Nat) :
    decode ⟨contents, place⟩ length = ofBytes (contents.take length) ∧
      ∀ fault, decode ⟨contents, place⟩ length = .error fault → fault.isShortRead = false := by
  have htake : (contents.take length).length = length := List.length_take_of_le h
  have hread : ∀ fault, decode ⟨contents, place⟩ length = .error fault →
      fault.isShortRead = false := by
    intro fault hfault
    exact decodeHeader_claimsAhead.isShortRead_eq_false (Cursor.Backed.start h)
      (decode_eq_error_iff_run.mp hfault)
  have hwhole : Cursor.extend ⟨contents.take length, 0, length⟩ (contents.drop length) 0 =
      ⟨contents, 0, length⟩ := by
    simp [Cursor.extend]
  refine ⟨?_, hread⟩
  rcases decodeHeader_claimsAhead.map_run_extend ⟨contents.take length, 0, length⟩
    (contents.drop length) with ⟨fault, hrun, hshort⟩ | hsame
  · have hnone := decodeHeader_claimsAhead.isShortRead_eq_false
      (Cursor.Backed.start (Nat.le_of_eq htake.symm)) hrun
    rw [hnone] at hshort
    cases hshort
  · rw [hwhole] at hsame
    show Except.map Prod.fst (decodeHeader.run ⟨contents, 0, length⟩) =
      Except.map Prod.fst (decodeHeader.run ⟨contents.take length, 0, (contents.take length).length⟩)
    rw [htake]
    exact hsame.symm

/-- **Streams have the headers of arrays**, wherever they stand. -/
theorem streamed_decode (contents : Bytes) (place : Nat) (hlength : length ≤ sizeLimit) :
    Streamed contents length (decode ⟨contents, place⟩ length) where
  eq_ofBytes_take h := (decode_of_le h place).1
  isShortRead_eq_false h := (decode_of_le h place).2
  runsOut_or_eq hless := by
    by_cases hfails : ∃ fault, decodeHeader.run ⟨contents, 0, length⟩ = .error fault ∧
        fault.isShortRead
    · obtain ⟨fault, hrun, hshort⟩ := hfails
      have hsection := decodeSection_run_of_isShortRead hrun hshort
      exact .inl ⟨⟨fault, decode_eq_error_iff_run.mpr hrun, hshort⟩,
        Section.runsOut_of_isShortRead (Nat.le_of_lt hless) hlength hsection hshort⟩
    · refine .inr fun pad hpad => ?_
      have hsame := (decodeHeader_claimsAhead.map_run_extend ⟨contents, 0, length⟩ pad).resolve_left
        hfails
      have hfilled : Cursor.extend ⟨contents, 0, length⟩ pad 0 =
          ⟨contents ++ pad, 0, (contents ++ pad).length⟩ := by
        rw [List.length_append, hpad]
        rfl
      rw [hfilled] at hsame
      exact hsame

end Header

end Snapshot
