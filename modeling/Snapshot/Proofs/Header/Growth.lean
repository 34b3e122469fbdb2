import Snapshot.Proofs.Header.Canonical
import Snapshot.Proofs.Header.Claims

/-!
# Files that grow

A file may be looked at while it is still being written, and what was said of it must not have to be
taken back when more bytes arrive.  There are two ways in which a file is turned down.

* Something is wrong with the bytes that were read.  Then the same is wrong with every longer
  file, whatever it goes on with.
* The file is too short.  Then it is said how long it has to become, and until it is that long, it
  is turned down with the same demand.

Both follow from going through the decoder on the file and on the longer one side by side
(`Header.ofBytes_append_of_error`), and `Header.ofBytes_append_eq_error` puts them together.  The
length that is asked for is clamped to what can be stated.  For a file that is shorter than that
it is a greater length all the same.
-/

namespace Snapshot

open Decoder

theorem clamp_le (size : Nat) : clamp size ≤ size := Nat.min_le_left size sizeLimit

theorem lt_clamp {length size : Nat} (hlength : length < sizeLimit) (hless : length < size) :
    length < clamp size := Nat.lt_min.mpr ⟨hless, hlength⟩

namespace Header

variable {bytes : Bytes} {fault : Fault}

/-- A file that was turned down, and what becomes of it with more bytes behind. -/
theorem ofBytes_append_of_error (hfails : ofBytes bytes = .error fault) (tail : Bytes) :
    (fault.isOfContents ∧ ofBytes (bytes ++ tail) = .error fault) ∨
      ∃ reach, fault = .truncated (clamp reach) bytes.length ∧ bytes.length < reach ∧
        ((bytes ++ tail).length < reach →
          ofBytes (bytes ++ tail) = .error (.truncated (clamp reach) (bytes ++ tail).length)) := by
  have hextended := decodeHeader_extended bytes tail
  have hrun : decodeHeader.run ⟨bytes, 0, bytes.length⟩ = .error fault :=
    decode_eq_error_iff_run.mp hfails
  rw [hrun] at hextended
  generalize hgrown : decodeHeader.run ⟨bytes ++ tail, 0, (bytes ++ tail).length⟩ = result
    at hextended
  have herror : ∀ {other : Fault}, result = .error other →
      ofBytes (bytes ++ tail) = .error other :=
    fun hresult => decode_eq_error_iff_run.mpr (hgrown.trans hresult)
  cases hextended with
  | fault hfault => exact .inl ⟨hfault, herror rfl⟩
  | @refused reach _ hrefused =>
      refine .inr ⟨reach, rfl, hrefused.limit_lt, fun hless => herror ?_⟩
      rw [List.length_append] at hless ⊢
      exact hrefused.still hless
  | ended hshort =>
      rw [isShortRead_eq_false_of_decodeHeader hrun] at hshort
      cases hshort

/-- **A fault is not taken back when a file grows.**  A truncation states the length of the file
and a greater one, and as long as the file has not reached that, it is said to be truncated and
asked for the same length.  Every other fault is the fault of all files that begin with the same
bytes. -/
theorem ofBytes_append_eq_error (hsize : bytes.length < sizeLimit)
    (hfails : ofBytes bytes = .error fault) :
    (∀ needed available, fault = .truncated needed available →
      available = bytes.length ∧ bytes.length < needed ∧
        ∀ tail : Bytes, (bytes ++ tail).length < needed →
          ofBytes (bytes ++ tail) = .error (.truncated needed (bytes ++ tail).length)) ∧
    ((∀ needed available, fault ≠ .truncated needed available) →
      ∀ tail : Bytes, ofBytes (bytes ++ tail) = .error fault) := by
  constructor
  · rintro needed available rfl
    have hgrown : ∀ tail : Bytes, ∃ reach, needed = clamp reach ∧ available = bytes.length ∧
        bytes.length < reach ∧ ((bytes ++ tail).length < reach →
          ofBytes (bytes ++ tail) = .error (.truncated needed (bytes ++ tail).length)) := by
      intro tail
      rcases ofBytes_append_of_error hfails tail with ⟨hcontents, -⟩ | ⟨reach, heq, hreach⟩
      · cases hcontents
      · cases heq
        exact ⟨reach, rfl, rfl, hreach⟩
    obtain ⟨reach, hneeded, havailable, hless, -⟩ := hgrown []
    refine ⟨havailable, hneeded ▸ lt_clamp hsize hless, fun tail hshort => ?_⟩
    obtain ⟨reach, rfl, -, -, hstill⟩ := hgrown tail
    exact hstill (Nat.lt_of_lt_of_le hshort (clamp_le reach))
  · intro hother tail
    rcases ofBytes_append_of_error hfails tail with ⟨-, hsame⟩ | ⟨reach, heq, -⟩
    · exact hsame
    · exact absurd heq (hother _ _)

theorem ofBytes_append_eq_error_bigEndian :
    let file := bigEndianSection.encode ++ List.replicate 20 0x3f
    let broken := { bigEndianSection with names := ["x", "x"] }.encode
    -- The file lacks eight of its bytes, and with three more of them it still lacks five.
    (ofBytes (file.take 143) = .error (.truncated 151 143) ∧
      ofBytes (file.take 143 ++ [1, 2, 3]) = .error (.truncated 151 146)) ∧
    -- A name is there twice, and nothing behind it makes up for that.
    (ofBytes broken = .error (.repeatedName "x") ∧
      ofBytes (broken ++ file) = .error (.repeatedName "x")) := by
  intro file broken
  have hshort : ofBytes (file.take 143) = .error (.truncated 151 143) := by decide +kernel
  have hbroken : ofBytes broken = .error (.repeatedName "x") := by decide +kernel
  obtain ⟨-, -, hstill⟩ :=
    (ofBytes_append_eq_error (by decide +kernel) hshort).1 151 143 rfl
  have hsame := (ofBytes_append_eq_error (by decide +kernel) hbroken).2 nofun
  have hlength : (file.take 143 ++ [1, 2, 3]).length = 146 := by decide +kernel
  exact ⟨⟨hshort, hlength ▸ hstill [1, 2, 3] (by decide +kernel)⟩, hbroken, hsame file⟩

end Header

end Snapshot
