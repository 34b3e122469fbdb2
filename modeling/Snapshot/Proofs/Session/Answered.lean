import Snapshot.Proofs.Session.Atomic

/-!
# Reads of a file, by its bytes

`Session.Answered` says that a read of a file with given bytes was answered: in
some run, at some path, by some worker, at once or after it had waited.  Nothing
of this matters for the answer, which is the outcome of the request
(`Session.Answered.exists_outcome`).  So two reads of the same bytes may be
compared although they were made at different times in different places.
-/

namespace Snapshot.Session

/-- A read of `text` from a file with the given bytes got a worker and was answered with `result`,
and the buffer was then `after`. -/
inductive Answered (bytes : Bytes) (text : String) (buffer : Buffer)
    (result : Except ReadError Unit) (after : Buffer) : Prop
  /-- The read got its worker at once. -/
  | atOnce (steps : List Step) (name : String) {index : Nat} {selector : Selector} {answer : Answer}
    {path : Path} (hreader : (Session.start.after steps).reader = some index)
    (hasked : ((Pool.ask selector).run ((Session.start.after steps).pool index)).result = .ok answer)
    (hserved : answer ≠ .blocked)
    (hfile : (Session.start.after steps).directory.fetch path = .ok bytes)
    (hreply : ((Session.start.after steps).step
      (.begin name (.ok selector) (.readInto path text buffer))).2.reply = .readInto result after)
  /-- The read had waited, and a step released a worker to it. -/
  | later (steps : List Step) (step : Step) {pending : Pending} {served : Woken} {path : Path}
    (hpending : (Session.start.after steps).pending = some pending)
    (hcall : pending.call = .readInto path text buffer)
    (hserved : served ∈ ((Session.start.after steps).step step).2.woken)
    (hfile : (Session.start.after steps).directory.fetch path = .ok bytes)
    (hreply : served.reply = .readInto result after)

namespace Answered

variable {bytes : Bytes} {text : String} {buffer after : Buffer} {result : Except ReadError Unit}

/-- **The answer is the outcome of the request** at a path with the bytes of the file. -/
theorem exists_outcome (h : Answered bytes text buffer result after) :
    ∃ directory path, Directory.fetch directory path = .ok bytes ∧
      readOutcome directory path text buffer = (result, after) := by
  cases h with
  | @atOnce steps name index selector answer path hreader hasked hserved hfile hreply =>
      have hcall : (Call.readInto path text buffer).outcome (Session.start.after steps).directory =
          some _ := rfl
      have houtcome := (sound_after steps).begin_reply hreader hasked hserved hcall name
      rw [hreply] at houtcome
      cases houtcome
      exact ⟨_, path, hfile, rfl⟩
  | @later steps step pending served path hpending hcall hserved hfile hreply =>
      obtain ⟨found, hfound, -, houtcome⟩ := (sound_after steps).woken_reply step hserved
      obtain rfl : pending = found := Option.some.inj (hpending.symm.trans hfound)
      rw [hcall] at houtcome
      have hread := houtcome _ rfl
      rw [hreply] at hread
      cases hread
      exact ⟨_, path, hfile, rfl⟩

/-- The directory with one file, whose name is `a`. -/
def onlyFile (bytes : Bytes) : Directory := Directory.empty.write ⟨"a"⟩ bytes

theorem fetch_onlyFile (bytes : Bytes) : (onlyFile bytes).fetch ⟨"a"⟩ = .ok bytes := by
  have hfull : (onlyFile bytes).full ⟨"a"⟩ = ⟨"snapshots/a"⟩ := rfl
  have hpossible : Path.isImpossible ⟨"snapshots/a"⟩ = false := by decide
  have hsize : Path.size ⟨"snapshots/a"⟩ = 11 := by decide
  have hfollow : (onlyFile bytes).follow ⟨"a"⟩ = .ok (.file 0) := by
    unfold Directory.follow
    dsimp only
    rw [hfull, hpossible, hsize]
    rfl
  unfold Directory.fetch
  rw [hfollow]
  rfl

/-- **Every file can be read**: once there are a reader and the file, every read is answered. -/
theorem of_onlyFile
    (hread : readOutcome (onlyFile bytes) ⟨"a"⟩ text buffer = (result, after)) :
    Answered bytes text buffer result after := by
  let steps : List Step := [.newReader (.filled ⟨1, 0, true⟩), .write ⟨"a"⟩ bytes]
  have hreader : (Session.start.after steps).reader = some 0 := rfl
  have hasked : ((Pool.ask .auto).run ((Session.start.after steps).pool 0)).result =
      .ok (.pooled ⟨1, 0⟩) := rfl
  have hfile : (Session.start.after steps).directory.fetch ⟨"a"⟩ = .ok bytes :=
    fetch_onlyFile bytes
  have hreply : (Session.start.after steps).AnswersAlone ⟨"a"⟩ .auto "" (text, buffer) _ _ :=
    (sound_after steps).answersAlone hreader hasked nofun "" hread
  exact .atOnce steps "" hreader hasked nofun hfile hreply

/-! ## What a read leaves -/

/-- A file from which something was read has a header. -/
theorem exists_header (h : Answered bytes text buffer (.ok ()) after) :
    ∃ header, Header.ofBytes bytes = .ok header := by
  obtain ⟨directory, path, hfile, hread⟩ := h.exists_outcome
  exact exists_header_of_readOutcome_eq_ok hfile hread

section

variable {header : Header} (hdecode : Header.ofBytes bytes = .ok header)

include hdecode

/-- A read that was not planned fails for this reason, and leaves the buffer as it was. -/
theorem eq_of_unplanned (h : Answered bytes text buffer result after) {error : ReadError}
    (hplan : planRead header.layout text buffer = .error error) :
    result = .error error ∧ after = buffer := by
  obtain ⟨directory, path, hfile, hread⟩ := h.exists_outcome
  exact Prod.mk.inj (hread.symm.trans (readOutcome_of_unplanned hfile hdecode hplan))

/-- A read that was planned leaves what it is to leave. -/
theorem eq_of_planned (h : Answered bytes text buffer result after) (hsize : bytes.length ≤ sizeLimit)
    {accesses : List Access} (hplan : planRead header.layout text buffer = .ok accesses) :
    ∃ expression, Expression.parse text = .ok expression ∧ result = .ok () ∧
      after = header.written bytes expression buffer := by
  obtain ⟨directory, path, hfile, hread⟩ := h.exists_outcome
  obtain ⟨expression, hparse, houtcome⟩ := readOutcome_of_planned hfile hsize hdecode hplan
  exact ⟨expression, hparse, Prod.mk.inj (hread.symm.trans houtcome)⟩

/-- **What a read leaves** if it succeeds. -/
theorem eq_written (h : Answered bytes text buffer (.ok ()) after)
    (hsize : bytes.length ≤ sizeLimit) :
    ∃ expression, Expression.parse text = .ok expression ∧
      buffer.length = header.layout.count ∧ after = header.written bytes expression buffer := by
  cases hplan : planRead header.layout text buffer with
  | error error => cases (h.eq_of_unplanned hdecode hplan).1
  | ok accesses =>
      obtain ⟨-, -, -, -, -, hlength⟩ := planRead_eq_ok_iff.mp hplan
      obtain ⟨expression, hparse, -, hafter⟩ := h.eq_of_planned hdecode hsize hplan
      exact ⟨expression, hparse, hlength, hafter⟩

end

end Answered

end Snapshot.Session
