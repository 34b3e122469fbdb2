import Mathlib.Tactic.SplitIfs
import Snapshot.Proofs.Read.Work
import Snapshot.Worker.Basic

/-!
# Workers do not look at the wrong file

A worker that keeps its file asks storage again where the path leads, and goes on
with the file that it has only if the identity is the same.  An identity names
the entry that it belongs to.  So all that has to be known of the file at hand is
that its identity is that of the entry which is read (`Worker.Sound`).  Every
piece of work keeps this, and opening a path then leaves nothing of what the
worker did before (`Worker.openPath_leaves`).

Directory and entry alone decide what is found in an open file
(`Directory.headerAt`, `Directory.rangeAt`).
-/

namespace Snapshot

/-! ## What is found in an entry -/

namespace Directory

variable (directory : Directory)

/-- The header of an entry. -/
def headerAt : Entry → Except ReadError Header
  | .directory _ => .error (.fault (.storage .isADirectory))
  | .file number => (Header.ofBytes (directory.contents (.file number))).mapError .fault

/-- A range of the bytes of an entry. -/
def rangeAt (entry : Entry) (start length : Nat) : Except ReadError Bytes :=
  let contents := directory.contents entry
  if Worker.isRefused contents start length then .error (.storage .badArgument)
  else if contents.length < start + length ∧ length ≠ 0 then .error (.storage entry.endFault)
  else .ok ((contents.drop start).take length)

/-- A range inside the contents is read as it is. -/
theorem rangeAt_eq_ok {entry : Entry} {start length : Nat}
    (hinside : start + length ≤ (directory.contents entry).length) :
    directory.rangeAt entry start length =
      .ok (((directory.contents entry).drop start).take length) := by
  have hrefused : ¬Worker.isRefused (directory.contents entry) start length := by
    unfold Worker.isRefused
    rw [Bool.and_eq_true, decide_eq_true_eq]
    omega
  unfold rangeAt
  dsimp only
  rw [if_neg hrefused, if_neg (by omega)]

variable {directory}

/-- Bytes that were fetched are those of a file. -/
theorem follow_of_fetch {path : Path} {bytes : Bytes} (hfile : directory.fetch path = .ok bytes) :
    ∃ number, directory.follow path = .ok (.file number) ∧
      directory.contents (.file number) = bytes := by
  unfold fetch at hfile
  split at hfile
  · rename_i number hfollow
    cases hfile
    exact ⟨number, hfollow, rfl⟩
  · cases hfile
  · cases hfile

end Directory

/-- The file as it was when it was opened, wherever it stands by now. -/
def OpenFile.rewound (file : OpenFile) : OpenFile := { file with place := 0 }

namespace Worker

open Work

/-! ## The file at hand -/

/-- The identity of the file at hand is that of the entry which is read. -/
def Sound (worker : Worker) : Prop :=
  ∀ file, worker.current = some file → file.identity.entry = file.entry

/-- The entry that is read. -/
def reading (worker : Worker) : Except ReadError Entry :=
  match worker.current with
  | some file => .ok file.entry
  | none => .error (.storage .notFound)

theorem sound_fresh (keepsFiles : Bool) : (fresh keepsFiles).Sound := by
  intro file hfile
  cases hfile

/-- The worker has the file that it had before, which may stand elsewhere. -/
def SameFile (before after : Worker) : Prop :=
  after.current.map OpenFile.rewound = before.current.map OpenFile.rewound ∧
    after.keepsFiles = before.keepsFiles

namespace SameFile

theorem refl (worker : Worker) : worker.SameFile worker := ⟨rfl, rfl⟩

variable {before middle after : Worker}

theorem trans (hfirst : before.SameFile middle) (hsecond : middle.SameFile after) :
    before.SameFile after :=
  ⟨hsecond.1.trans hfirst.1, hsecond.2.trans hfirst.2⟩

theorem symm (h : before.SameFile after) : after.SameFile before := ⟨h.1.symm, h.2.symm⟩

theorem exists_current (h : before.SameFile after) {file : OpenFile}
    (hfile : after.current = some file) :
    ∃ earlier, before.current = some earlier ∧ earlier.rewound = file.rewound := by
  have hsame := h.1
  rw [hfile, Option.map_some, eq_comm, Option.map_eq_some_iff] at hsame
  exact hsame

theorem reading_eq (h : before.SameFile after) : after.reading = before.reading := by
  unfold reading
  cases hafter : after.current with
  | none =>
      have hsame := h.1
      rw [hafter, Option.map_none, eq_comm, Option.map_eq_none_iff] at hsame
      rw [hsame]
  | some file =>
      obtain ⟨earlier, hearlier, hsame⟩ := h.exists_current hafter
      have hentry : earlier.entry = file.entry := (OpenFile.mk.inj hsame).2.1
      rw [hearlier]
      exact congrArg Except.ok hentry.symm

theorem sound (h : before.SameFile after) (hsound : before.Sound) : after.Sound := by
  intro file hfile
  obtain ⟨earlier, hearlier, hsame⟩ := h.exists_current hfile
  obtain ⟨-, hentry, hidentity, -⟩ := OpenFile.mk.inj hsame
  rw [← hidentity, ← hentry]
  exact hsound earlier hearlier

end SameFile

/-- Moving the file does not change which one it is. -/
theorem seek_leaves (place : Nat) (worker : Worker) :
    (seek place).Leaves worker fun result after =>
      result = .ok () ∧ worker.SameFile after ∧ after.scratch = worker.scratch ∧
        after.current = worker.current.map fun file => { file with place := place } := by
  refine ⟨rfl, ⟨?_, rfl⟩, rfl, rfl⟩
  exact Option.map_map ..

/-- What comes behind a move of the file has the same file, at the new place. -/
theorem seek_bind_leaves {α : Type} {place : Nat} {worker : Worker} {next : Unit → Work Worker α}
    {post : Except ReadError α → Worker → Prop}
    (hnext : ∀ after : Worker, worker.SameFile after → after.scratch = worker.scratch →
      (after.current = worker.current.map fun file => { file with place := place }) →
        (next ()).Leaves after post) :
    (seek place >>= next).Leaves worker post := by
  apply (seek_leaves place worker).bind
  · rintro u after ⟨-, hsame, hscratch, hstands⟩
    exact hnext after hsame hscratch hstands
  · rintro error after ⟨⟨⟩, -⟩

theorem sound_of_none {worker : Worker} (h : worker.current = none) : worker.Sound := by
  intro file hfile
  rw [h] at hfile
  cases hfile

/-! ## Opening -/

/-- A path was opened: the worker reads what it leads to, and the one that was used is of no
account.  Where the path leads nowhere, the worker is as it was. -/
def Opens (directory : Directory) (path : Path) (before : Worker) (result : Except ReadError Unit)
    (after : Worker) : Prop :=
  after.keepsFiles = before.keepsFiles ∧
    match directory.follow path with
    | .ok entry => result = .ok () ∧ after.Sound ∧ after.reading = .ok entry
    | .error fault => result = .error (.storage fault) ∧ after = before

theorem Opens.sound {directory : Directory} {path : Path} {before after : Worker}
    {result : Except ReadError Unit} (h : Opens directory path before result after)
    (hsound : before.Sound) : after.Sound := by
  have hopens := h.2
  cases hfollow : directory.follow path with
  | error fault =>
      rw [hfollow] at hopens
      exact hopens.2 ▸ hsound
  | ok entry =>
      rw [hfollow] at hopens
      exact hopens.2.1

theorem openAnew_leaves (directory : Directory) (path : Path) (worker : Worker) :
    (openAnew directory path).Leaves worker (Opens directory path worker) := by
  unfold openAnew Opens
  rw [leaves_bind_iff, leaves_ofStorage]
  cases directory.follow path with
  | error fault => exact ⟨rfl, rfl, rfl⟩
  | ok entry =>
      refine ⟨rfl, rfl, ?_, rfl⟩
      intro file h
      cases h
      rfl

theorem Sound.of_kept? {worker : Worker} (h : worker.Sound) {directory : Directory} {path : Path}
    {kept : OpenFile} (hkept : worker.kept? directory path = some kept) :
    worker.current = some kept ∧ kept.identity.entry = kept.entry := by
  unfold kept? at hkept
  split at hkept
  · rw [Option.filter_eq_some_iff] at hkept
    exact ⟨hkept.1, h kept hkept.1⟩
  · cases hkept

/-- **Opening a path** leads to the same entry, whichever files were open before. -/
theorem openPath_leaves {worker : Worker} (h : worker.Sound) (directory : Directory) (path : Path) :
    (openPath directory path).Leaves worker (Opens directory path worker) := by
  unfold openPath
  rw [leaves_bind_iff, leaves_state]
  dsimp only
  cases hkept : worker.kept? directory path with
  | none => exact openAnew_leaves directory path worker
  | some kept =>
      obtain ⟨hcurrent, hidentity⟩ := h.of_kept? hkept
      dsimp only
      rw [leaves_bind_iff, leaves_ofStorage]
      cases hfollow : directory.follow path with
      | error fault =>
          unfold Opens
          rw [hfollow]
          exact ⟨rfl, rfl, rfl⟩
      | ok entry =>
          show (if directory.identity entry = kept.identity then note [.fileKept path]
            else note [.fileChanged path] >>= fun _ => openAnew directory path).Leaves worker _
          split_ifs with hsame
          · rw [leaves_note]
            unfold Opens
            rw [hfollow]
            refine ⟨rfl, rfl, h, ?_⟩
            -- The identity names the entry, so the file that is kept is the one at the path.
            have hentry : entry = kept.entry := by
              rw [← hidentity, ← hsame]
              rfl
            rw [reading, hcurrent, hentry]
          · exact openAnew_leaves directory path worker

/-! ## Reading -/

theorem reading_of_current {worker : Worker} {file : OpenFile}
    (hcurrent : worker.current = some file) : worker.reading = .ok file.entry := by
  unfold reading
  rw [hcurrent]

/-- Without a file nothing is read, and nothing is changed. -/
theorem currentFile_leaves (worker : Worker) :
    currentFile.Leaves worker fun result after =>
      after = worker ∧ match result with
        | .ok file => worker.current = some file
        | .error error => worker.current = none ∧ error = .storage .notFound := by
  unfold currentFile
  rw [leaves_bind_iff, leaves_state]
  dsimp only
  cases worker.current with
  | none => exact ⟨rfl, rfl, rfl⟩
  | some file => exact ⟨rfl, rfl⟩

/-- A piece of work on the current file fails as reading does if there is none. -/
theorem currentFile_bind_leaves {α : Type} {worker : Worker} {next : OpenFile → Work Worker α}
    {post : Except ReadError α → Worker → Prop}
    (hnone : worker.reading = .error (.storage .notFound) →
      post (.error (.storage .notFound)) worker)
    (hnext : ∀ file, worker.current = some file → (next file).Leaves worker post) :
    (currentFile >>= next).Leaves worker post := by
  apply (currentFile_leaves worker).bind
  · rintro file after ⟨rfl, hcurrent⟩
    exact hnext file hcurrent
  · rintro error after ⟨rfl, hcurrent, rfl⟩
    refine hnone ?_
    unfold reading
    rw [hcurrent]

/-- **The header** is that of the file at hand, wherever it stands. -/
theorem readHeader_leaves (directory : Directory) (worker : Worker) :
    (readHeader directory).Leaves worker fun result after =>
      result = worker.reading.bind directory.headerAt ∧ worker.SameFile after := by
  unfold readHeader
  apply currentFile_bind_leaves
  · intro hnone
    rw [hnone]
    exact ⟨rfl, .refl worker⟩
  · intro file hcurrent
    dsimp only
    rw [reading_of_current hcurrent]
    apply seek_bind_leaves
    intro after hsame _ _
    show Leaves _ _ fun result _ => result = directory.headerAt file.entry ∧ _
    cases file.entry with
    | directory place => exact ⟨rfl, hsame⟩
    | file number =>
        -- Decoding begins at the start of the file.
        have hheader : (Header.decode ⟨directory.contents (.file number), file.place⟩
            (directory.contents (.file number)).length).mapError ReadError.fault =
            directory.headerAt (.file number) := rfl
        dsimp only
        rw [leaves_bind_iff, leaves_ofFault, hheader]
        cases directory.headerAt (.file number) with
        | error error => exact ⟨rfl, hsame⟩
        | ok header => exact ⟨rfl, hsame⟩

theorem length_resize (bytes : Bytes) (length : Nat) : (resize bytes length).length = length := by
  rw [resize, List.length_append, List.length_take, List.length_replicate]
  omega

/-- Reading on gives the bytes from where the file stands. -/
theorem readOn_leaves (directory : Directory) (length : Nat) {worker : Worker} {file : OpenFile}
    (hcurrent : worker.current = some file) :
    (readOn directory length).Leaves worker fun result after =>
      result = .ok (((directory.contents file.entry).drop file.place).take length) ∧
        worker.SameFile after ∧ after.scratch = worker.scratch := by
  obtain ⟨scratch, current, keepsFiles⟩ := worker
  obtain rfl : current = some file := hcurrent
  exact ⟨rfl, ⟨rfl, rfl⟩, rfl⟩

/-- **A range** is read from its start, wherever the file stands.  If it could be read it is in the
scratch space, and nothing else is there. -/
theorem readBytes_leaves (directory : Directory) (start length : Nat) (worker : Worker) :
    (readBytes directory start length).Leaves worker fun result after =>
      (result = worker.reading.bind fun entry => directory.rangeAt entry start length) ∧
        worker.SameFile after ∧ ∀ bytes, result = .ok bytes → after.scratch = bytes := by
  unfold readBytes
  apply currentFile_bind_leaves
  · intro hnone
    rw [hnone]
    exact ⟨rfl, .refl worker, nofun⟩
  intro file hcurrent
  rw [reading_of_current hcurrent, leaves_bind_iff, leaves_change]
  dsimp only
  show Leaves _ _ fun result _ => result = directory.rangeAt file.entry start length ∧ _
  unfold Directory.rangeAt
  dsimp only
  generalize hcontents : directory.contents file.entry = contents
  by_cases hrefused : isRefused contents start length
  · rw [if_pos hrefused, if_pos hrefused]
    split_ifs
    · apply seek_bind_leaves
      intro after hsame _ _
      exact ⟨rfl, hsame, nofun⟩
    · exact ⟨rfl, ⟨rfl, rfl⟩, nofun⟩
  rw [if_neg hrefused, if_neg hrefused]
  apply seek_bind_leaves
  intro sought hsought hscratch hstands
  rw [show Worker.current _ = _ from hcurrent, Option.map_some] at hstands
  apply (readOn_leaves directory length hstands).bind
  · rintro found read ⟨hfound, hread, hkept⟩
    have hsame : worker.SameFile read := SameFile.trans hsought hread
    obtain rfl : found = (contents.drop start).take length := hcontents ▸ Except.ok.inj hfound
    have hlength : ((contents.drop start).take length).length =
        min length (contents.length - start) := by
      rw [List.length_take, List.length_drop]
    rw [leaves_bind_iff, leaves_change]
    dsimp only
    by_cases hshort : contents.length < start + length ∧ length ≠ 0
    · rw [if_pos hshort, if_pos (by omega)]
      exact ⟨rfl, hsame, nofun⟩
    · rw [if_neg hshort, if_neg (by omega), leaves_bind_iff, leaves_note]
      refine ⟨rfl, hsame, ?_⟩
      intro bytes h
      cases h
      -- The range fills the scratch space, so nothing of what was there is left.
      have hrest : read.scratch.length ≤ ((contents.drop start).take length).length := by
        rw [hkept, hscratch, length_resize]
        omega
      show _ ++ read.scratch.drop _ = _
      rw [List.drop_eq_nil_of_le hrest, List.append_nil]
  · rintro error after ⟨⟨⟩, -⟩

/-! ## Letting go -/

theorem letGo_leaves (worker : Worker) :
    letGo.Leaves worker fun result after =>
      result = .ok () ∧ after.keepsFiles = worker.keepsFiles ∧ after.current = none := by
  unfold letGo
  rw [leaves_bind_iff, leaves_state]
  dsimp only
  cases hcurrent : worker.current with
  | none => exact ⟨rfl, rfl, hcurrent⟩
  | some file =>
      dsimp only
      rw [leaves_bind_iff, leaves_note]
      exact ⟨rfl, rfl, rfl⟩

theorem endRead_leaves {worker : Worker} (h : worker.Sound) :
    endRead.Leaves worker fun _ after => after.Sound := by
  unfold endRead
  rw [leaves_bind_iff, leaves_state]
  show (if worker.keepsFiles then pure () else letGo).Leaves worker _
  split_ifs
  · exact h
  · exact (letGo_leaves worker).mono fun _ _ hgone => sound_of_none hgone.2.2

end Worker

end Snapshot
