import Snapshot.Proofs.Read.StoredIds
import Snapshot.Proofs.Session.Answered

/-!
# Stored and counted identifiers are interchangeable

A file may store its identifiers or leave them to be counted up.  Where both have
the same numbers, no read tells the two files apart: it succeeds for both and
leaves the same buffer, or it fails for both with the same error, which can at
most list one more name (`answered_fileStoringIds`).
-/

namespace Snapshot.Session

/-- **Stored and counted identifiers are interchangeable.**  The file with a column for identifiers
has the header with this column.  A read of it ends as the same read of the file without, and
leaves the same in the same buffer. -/
theorem answered_fileStoringIds {bytes : Bytes} {h : Header}
    (hdecode : Header.ofBytes bytes = .ok h) (hids : "id" ∉ h.layout.names) {position : Nat}
    (hposition : position ≤ h.layout.columns) (hfew : h.layout.columns + 1 < wordBound 4)
    (hsize : (h.fileStoringIds bytes position).length ≤ sizeLimit) {text : String} {buffer : Buffer}
    {counted stored : Except ReadError Unit} {afterCounted afterStored : Buffer}
    (hcounted : Answered bytes text buffer counted afterCounted)
    (hstored : Answered (h.fileStoringIds bytes position) text buffer stored afterStored) :
    Header.ofBytes (h.fileStoringIds bytes position) = .ok (h.storingIds position) ∧
      stored = counted.mapError (ReadError.relist (h.layout.names.insertIdx position "id")) ∧
      afterStored = afterCounted := by
  have hlength := Header.length_fileStoringIds hdecode hposition hids hfew
  have hbytes : bytes.length ≤ sizeLimit := by omega
  have hnew := Header.ofBytes_fileStoringIds hdecode hposition hids hfew hbytes
  obtain ⟨accesses, hplans⟩ := Layout.planRead_storingIds (Header.tabled_of_ofBytes hdecode)
    hposition (Header.tabled_of_ofBytes hnew) text buffer
  refine ⟨hnew, ?_⟩
  cases hplan : planRead h.layout text buffer with
  | error error =>
      rw [hplan] at hplans
      obtain ⟨rfl, rfl⟩ := hcounted.eq_of_unplanned hdecode hplan
      obtain ⟨rfl, rfl⟩ := hstored.eq_of_unplanned hnew hplans
      exact ⟨rfl, rfl⟩
  | ok found =>
      rw [hplan] at hplans
      obtain ⟨expression, hparse, rfl, rfl⟩ := hcounted.eq_of_planned hdecode hbytes hplan
      obtain ⟨other, hother, rfl, rfl⟩ := hstored.eq_of_planned hnew hsize hplans
      obtain rfl : other = expression := Except.ok.inj (hother.symm.trans hparse)
      exact ⟨rfl, Header.written_fileStoringIds hdecode hposition hids hfew hbytes hplan hparse⟩

/-- A table without identifiers, for two particles. -/
def lastIdSection : Section where
  version := 1
  order := .big
  preamble := .ofWords 1 [2, 2, 1, 1, 1, 0xffffffffffffffff, 0, 0, 0, 0, 0, 0]
  native := []
  names := ["x"]
  types := [.f32]
  widths := [3]

/-- A file with this table, in which the first particle has the greatest identifier there is. -/
def lastIdFile : Bytes := lastIdSection.encode ++ List.replicate 24 0x40

theorem answered_fileStoringIds_lastId :
    Answered lastIdFile "id" (.flat .u64 [9, 9]) (.ok ()) (.flat .u64 [0xffffffffffffffff, 0]) ∧
      ∃ stored after, Answered ((lastIdSection.toHeader 120).fileStoringIds lastIdFile 0) "id"
          (.flat .u64 [9, 9]) stored after ∧
        stored = .ok () ∧ after = .flat .u64 [0xffffffffffffffff, 0] := by
  let storing := (lastIdSection.toHeader 120).fileStoringIds lastIdFile 0
  have hdecode : Header.ofBytes lastIdFile = .ok (lastIdSection.toHeader 120) := by decide +kernel
  have hids : "id" ∉ (lastIdSection.toHeader 120).layout.names := by decide +kernel
  have hfew : (lastIdSection.toHeader 120).layout.columns + 1 < wordBound 4 := by decide +kernel
  have hsize : storing.length ≤ sizeLimit := by decide +kernel
  have hcounted : Answered lastIdFile "id" (.flat .u64 [9, 9]) (.ok ())
      (.flat .u64 [0xffffffffffffffff, 0]) := .of_onlyFile (by decide +kernel)
  have hstored : Answered storing "id" (.flat .u64 [9, 9])
      (readOutcome (Answered.onlyFile storing) ⟨"a"⟩ "id" (.flat .u64 [9, 9])).1
      (readOutcome (Answered.onlyFile storing) ⟨"a"⟩ "id" (.flat .u64 [9, 9])).2 :=
    .of_onlyFile (Prod.eta _).symm
  obtain ⟨-, hresult, hafter⟩ :=
    answered_fileStoringIds hdecode hids (Nat.zero_le _) hfew hsize hcounted hstored
  exact ⟨hcounted, _, _, hstored, hresult, hafter⟩

end Snapshot.Session
