import Snapshot.Proofs.Header.Claims
import Snapshot.Proofs.Read.Atomic

/-!
# Whose fault it is that a read failed

A read that fails has failed at its path or at its plan (`readOutcome_settled`).  What is wrong with
a path is storage's or the file's fault, and what is wrong with a plan is the caller's: a plan is
made from the expression, the layout and the buffer alone.  So a failure is a usage error exactly if
the header of the file was there (`Settled.rightlyBlamed`).
-/

namespace Snapshot

/-! ## Files that cannot be opened -/

theorem isUsage_eq_false_of_headerAt {directory : Directory} {entry : Entry} {error : ReadError}
    (h : directory.headerAt entry = .error error) : error.isUsage = false := by
  cases entry with
  | directory place =>
      cases h
      rfl
  | file number =>
      obtain ⟨fault, hheader, rfl⟩ := mapError_eq_error_iff.mp h
      exact Header.isResolution_eq_false_of_ofBytes hheader

/-- What cannot be opened, or has no header, is not the caller's fault. -/
theorem isUsage_eq_false_of_openedAt {directory : Directory} {path : Path} {error : ReadError}
    (h : directory.openedAt path = .error error) : error.isUsage = false := by
  unfold Directory.openedAt at h
  obtain hfollow | ⟨entry, -, hopened⟩ := bind_eq_error_iff.mp h
  · obtain ⟨fault, -, rfl⟩ := mapError_eq_error_iff.mp hfollow
    rfl
  · obtain hheader | ⟨header, -, hpair⟩ := bind_eq_error_iff.mp hopened
    · exact isUsage_eq_false_of_headerAt hheader
    · cases hpair

/-! ## Requests that cannot be planned -/

theorem isResolution_of_parse {text : String} {fault : Fault}
    (h : Expression.parse text = .error fault) : fault.isResolution = true := by
  obtain ⟨name, index, rfl⟩ | ⟨shown, rfl⟩ := Expression.eq_of_parse_eq_error h
  · rfl
  · rfl

theorem isResolution_of_check {layout : Layout} {selection : Selection} {fault : Fault}
    (h : selection.check layout = .error fault) : fault.isResolution = true := by
  unfold Selection.check at h
  dsimp only at h
  split at h
  · cases h
    rfl
  · split at h
    · cases h
    · split_ifs at h
      cases h
      rfl

theorem isResolution_of_plan {layout : Layout} {expression : Expression} {fault : Fault}
    (h : expression.plan layout = .error fault) : fault.isResolution = true := by
  unfold Expression.plan Expression.check at h
  obtain hcheck | ⟨-, -, hplanned⟩ := bind_eq_error_iff.mp h
  · obtain ⟨selection, -, hfails⟩ := exists_of_forM_eq_error hcheck
    exact isResolution_of_check hfails
  · cases hplanned

theorem Buffer.isUsage_of_check {buffer : Buffer} {text : String} {expected : Shape}
    {particles : Nat} {error : ReadError}
    (h : buffer.check text expected particles = .error error) : error.isUsage = true := by
  unfold Buffer.check at h
  split_ifs at h
  · cases h
    rfl
  · cases h
    rfl

/-- What cannot be planned is the caller's fault. -/
theorem isUsage_of_planRead {layout : Layout} {text : String} {buffer : Buffer} {error : ReadError}
    (h : planRead layout text buffer = .error error) : error.isUsage = true := by
  unfold planRead at h
  obtain hparse | ⟨expression, -, h⟩ := bind_eq_error_iff.mp h
  · obtain ⟨fault, hfault, rfl⟩ := mapError_eq_error_iff.mp hparse
    exact isResolution_of_parse hfault
  obtain hplan | ⟨accesses, -, h⟩ := bind_eq_error_iff.mp h
  · obtain ⟨fault, hfault, rfl⟩ := mapError_eq_error_iff.mp hplan
    exact isResolution_of_plan hfault
  obtain hcheck | ⟨-, -, hplanned⟩ := bind_eq_error_iff.mp h
  · exact Buffer.isUsage_of_check hcheck
  · cases hplanned

/-! ## Reads -/

/-- The result of a read is put down to the right side.  Where the file could not be opened or had
no header, the read failed for that reason and the caller is not to blame; where it had one, only
the caller is. -/
structure RightlyBlamed (opened : Except ReadError (Entry × Header))
    (result : Except ReadError Unit) : Prop where
  of_unopened : ∀ error, opened = .error error → result = .error error ∧ error.isUsage = false
  of_opened : ∀ found error, opened = .ok found → result = .error error → error.isUsage = true

/-- **A read that fails at its path or at its plan** is put down to the right side. -/
theorem Settled.rightlyBlamed {directory : Directory} {path : Path} {text : String}
    {buffer after : Buffer} {result : Except ReadError Unit}
    (h : Settled (directory.openedAt path) text buffer result after) :
    RightlyBlamed (directory.openedAt path) result := by
  constructor
  · intro error hopened
    refine ⟨?_, isUsage_eq_false_of_openedAt hopened⟩
    rw [hopened] at h
    cases h with
    | unopened hfound => exact congrArg Except.error (Except.error.inj hfound).symm
    | unplanned hfound => cases hfound
    | done hfound => cases hfound
  · intro found error hopened hresult
    rw [hopened, hresult] at h
    cases h with
    | unopened hfound => cases hfound
    | unplanned _ hplan => exact isUsage_of_planRead hplan

end Snapshot
