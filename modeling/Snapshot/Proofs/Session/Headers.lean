import Snapshot.Proofs.Header.Streamed
import Snapshot.Proofs.Session.Sound

/-!
# Two ways to a header

The header of a file can be asked for without a worker, and then all its bytes
are at hand, or it is read by a worker, from a stream that may stand anywhere.
Both decode the same header, or find the same fault, whichever worker it is and
whatever it has read before (`Session.headers_agree`).
-/

namespace Snapshot

/-! ## The header that a worker reads -/

/-- A worker follows a path and reads the header of what is there. -/
def Worker.readHeaderAt (directory : Directory) (path : Path) : Work Worker Header := do
  Worker.openPath directory path
  Worker.readHeader directory

/-- The header of a file is that of its bytes, whatever the worker has read before. -/
theorem Worker.readHeaderAt_leaves {worker : Worker} (h : worker.Sound) {directory : Directory}
    {path : Path} {number : Nat} (hfollow : directory.follow path = .ok (.file number)) :
    (readHeaderAt directory path).Leaves worker fun result _ =>
      result = (Header.ofBytes (directory.contents (.file number))).mapError .fault := by
  unfold readHeaderAt
  apply (openPath_leaves h directory path).bind
  · intro _ after hopens
    have hopened := hopens.2
    rw [hfollow] at hopened
    obtain ⟨-, -, hreading⟩ := hopened
    apply (readHeader_leaves directory after).mono
    intro result final hread
    rw [hread.1, hreading]
    rfl
  · intro error after hopens
    have hopened := hopens.2
    rw [hfollow] at hopened
    cases hopened.1

namespace Session

/-! ## The workers of a session -/

/-- A worker that the session has, or may make. -/
inductive Employs (session : Session) : Worker → Prop
  | single {name : String} {worker : Worker} (hheld : (name, .single worker) ∈ session.holdings) :
      Employs session worker
  | pooled (index : Nat) (slot : Slot) : Employs session ((session.pool index).worker slot)
  | fresh (keepsFiles : Bool) : Employs session (.fresh keepsFiles)

theorem Sound.employs {session : Session} (h : session.Sound) {worker : Worker}
    (hemployed : session.Employs worker) : worker.Sound := by
  cases hemployed with
  | single hheld => exact h.singles _ worker hheld
  | pooled index slot => exact (h.pool index).worker slot
  | fresh keepsFiles => exact Worker.sound_fresh keepsFiles

/-! ## Both ways -/

/-- **Streams and arrays have the same headers.**  Where a stream stands makes no difference to the
header that is decoded from it, which is that of the bytes up to the stated length, or of the bytes
filled up to it, or else the stream ended in the header section.  So after every run each worker
reads the same header of a file as is read without one. -/
theorem headers_agree (contents : Bytes) (place : Nat) {length : Nat} (hlength : length ≤ sizeLimit) :
    (∀ other, Header.decode ⟨contents, place⟩ length = Header.decode ⟨contents, other⟩ length) ∧
      Header.Streamed contents length (Header.decode ⟨contents, place⟩ length) ∧
      ∀ (steps : List Step) (worker : Worker) (path : Path),
        let session := Session.start.after steps
        session.Employs worker → session.directory.fetch path = .ok contents →
          let read := (Worker.readHeaderAt session.directory path).run worker
          let alone := (Snapshot.readHeader session.directory path).run session
          read.result = alone.result ∧
            read.result = (Header.decode ⟨contents, place⟩ contents.length).mapError .fault := by
  refine ⟨fun other => rfl, Header.streamed_decode contents place hlength, ?_⟩
  intro steps worker path session hemployed hfile read alone
  have hsound := (sound_after steps).employs hemployed
  obtain ⟨number, hfollow, hcontents⟩ := Directory.follow_of_fetch hfile
  have hread : read.result = (Header.ofBytes contents).mapError .fault :=
    hcontents ▸ Worker.readHeaderAt_leaves hsound hfollow
  have halone : alone.result = (Header.ofBytes contents).mapError .fault := by
    have hresult := (readHeader_leaves session.directory path session).1
    rw [hfile] at hresult
    exact hresult
  exact ⟨hread.trans halone.symm, hread⟩

/-- A file that ends between the lengths of its names. -/
def brokenFile : Bytes := Header.bigEndianSection.encode.take 120

/-- A worker has read from a whole file, and the broken one takes its place. -/
def brokenSteps : List Step :=
  [.newReader (.filled ⟨1, 0, true⟩),
    .write ⟨"a"⟩ (Header.bigEndianSection.encode ++ List.replicate 20 0x3f),
    .begin "first" (.ok .auto) (.readInto ⟨"a"⟩ "id" (.flat .u64 [0])), .replace ⟨"a"⟩ brokenFile]

theorem headers_agree_brokenFile :
    Header.decode ⟨brokenFile, 7⟩ 151 = .error .endOfWord ∧
      Section.RunsOut brokenFile 151 ∧
      let session := Session.start.after brokenSteps
      let read :=
        (Worker.readHeaderAt session.directory ⟨"./a"⟩).run ((session.pool 0).worker ⟨1, 0⟩)
      read.result = ((Snapshot.readHeader session.directory ⟨"./a"⟩).run session).result ∧
        read.result = .error (.fault (.truncated 122 120)) := by
  have hlength : 151 ≤ sizeLimit := by decide
  have hfails : Header.decode ⟨brokenFile, 7⟩ 151 = .error .endOfWord := by decide +kernel
  have hfile : (Session.start.after brokenSteps).directory.fetch ⟨"./a"⟩ = .ok brokenFile := by
    decide +kernel
  obtain ⟨-, hstreamed, hworkers⟩ := headers_agree brokenFile 7 hlength
  obtain ⟨halone, hread⟩ := hworkers brokenSteps _ ⟨"./a"⟩ (.pooled 0 ⟨1, 0⟩) hfile
  refine ⟨hfails, ?_, halone, hread.trans (by decide +kernel)⟩
  rcases hstreamed.runsOut_or_eq (by decide +kernel) with ⟨-, hruns⟩ | hfilled
  · exact hruns
  · have hother : Header.ofBytes (brokenFile ++ List.replicate 31 0) ≠ .error .endOfWord := by
      decide +kernel
    exact absurd ((hfilled _ (by decide +kernel)).symm.trans hfails) hother

end Session

end Snapshot
