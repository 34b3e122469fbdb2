import Mathlib.Algebra.Group.Nat.Defs
import Mathlib.Data.List.Basic
import Snapshot.Proofs.Worker.Sound

/-!
# What a worker did before

Between two ranges a worker may be asked for much else: other files are opened or cannot be opened,
headers are read or cannot be decoded, ranges are too long, files are let go of.  All of it moves
the place where an open file would be read on, and the scratch space takes other lengths.

Neither matters.  A range is read from its start, wherever the file stands, and the scratch space
takes the length of the range first (`readBytes_leaves`).  So all that is left of the past is which
file is open, and that is told by the tasks and their success alone: it is the one that was opened
last, if it was not let go of since (`LastOpened`).  One task keeps this in step with the worker
(`Tracks.next`), and so does any number of them (`Tracks.after`).
-/

namespace Snapshot

namespace Worker

open Work

/-! ## Tasks -/

/-- What a worker is asked to do.  A header that is read leaves the file anywhere. -/
inductive Task where
  | openPath (path : Path)
  | readHeader (left : Nat)
  | readBytes (start length : Nat)
  | finish
  | close

/-- A task, and whether it was done. -/
abbrev Past := List (Task × Bool)

/-- A worker that does this has no file open afterwards. -/
def Task.letsGo (keepsFiles : Bool) : Task → Bool
  | .finish => !keepsFiles
  | .close => true
  | _ => false

/-- Whether work was done, and the state behind it. -/
def settled {α : Type} (work : Work Worker α) (worker : Worker) : Bool × Worker :=
  let outcome := work.run worker
  (outcome.result.isOk, outcome.state)

/-- Whether a task is done, and the worker behind it. -/
def perform (directory : Directory) (worker : Worker) : Task → Bool × Worker
  | .openPath path => settled (Worker.openPath directory path) worker
  | .readHeader left =>
    let done := settled (Worker.readHeader directory) worker
    (done.1, (settled (seek left) done.2).2)
  | .readBytes start length => settled (Worker.readBytes directory start length) worker
  | .finish => settled endRead worker
  | .close => settled letGo worker

/-- The worker after a list of tasks. -/
def after (directory : Directory) (worker : Worker) (tasks : List Task) : Worker :=
  tasks.foldl (fun worker task => (worker.perform directory task).2) worker

/-- The tasks with what became of them. -/
def past (directory : Directory) : Worker → List Task → Past
  | _, [] => []
  | worker, task :: tasks =>
    let done := worker.perform directory task
    (task, done.1) :: past directory done.2 tasks

/-- The last path that was opened, of a file that was not let go of since. -/
def LastOpened (keepsFiles : Bool) (past : Past) (path : Path) : Prop :=
  ∃ earlier later, past = earlier ++ (.openPath path, true) :: later ∧
    ∀ done ∈ later, (∀ other, done ≠ (.openPath other, true)) ∧ done.1.letsGo keepsFiles = false

theorem lastOpened_append_singleton_iff {keepsFiles : Bool} {past : Past} {done : Task × Bool}
    {path : Path} :
    LastOpened keepsFiles (past ++ [done]) path ↔
      done = (.openPath path, true) ∨
        LastOpened keepsFiles past path ∧ (∀ other, done ≠ (.openPath other, true)) ∧
          done.1.letsGo keepsFiles = false := by
  constructor
  · rintro ⟨earlier, later, hpast, hlater⟩
    rcases List.eq_nil_or_concat' later with rfl | ⟨later, last, rfl⟩
    · exact .inl (List.singleton_inj.mp (List.append_inj' hpast rfl).2)
    · right
      rw [← List.cons_append, ← List.append_assoc] at hpast
      obtain ⟨hearlier, hlast⟩ := List.append_inj' hpast rfl
      obtain rfl := List.singleton_inj.mp hlast
      refine ⟨⟨earlier, later, hearlier, fun other hother => ?_⟩, ?_⟩
      · exact hlater other (List.mem_append_left _ hother)
      · exact hlater done (List.mem_append_right _ (List.mem_singleton.mpr rfl))
  · rintro (rfl | ⟨⟨earlier, later, rfl, hlater⟩, hdone⟩)
    · exact ⟨past, [], rfl, fun _ h => absurd h List.not_mem_nil⟩
    · refine ⟨earlier, later ++ [done], by simp, fun other hother => ?_⟩
      rcases List.mem_append.mp hother with hother | hother
      · exact hlater other hother
      · rw [List.mem_singleton.mp hother]
        exact hdone

/-! ## One task -/

/-- The file that is current after a path was opened was opened with this path, or with another way
to write it. -/
theorem openPath_leaves_path (directory : Directory) (path : Path) (worker : Worker) :
    (openPath directory path).Leaves worker fun result after =>
      result = .ok () → ∃ file, after.current = some file ∧ directory.SamePath file.path path := by
  have hanew : (openAnew directory path).Leaves worker fun result after =>
      result = .ok () →
        ∃ file, after.current = some file ∧ directory.SamePath file.path path := by
    unfold openAnew
    rw [leaves_bind_iff, leaves_ofStorage]
    cases directory.follow path with
    | error fault => exact nofun
    | ok entry => exact fun _ => ⟨_, rfl, rfl⟩
  unfold openPath
  rw [leaves_bind_iff, leaves_state]
  dsimp only
  cases hkept : worker.kept? directory path with
  | none => exact hanew
  | some kept =>
      dsimp only
      rw [leaves_bind_iff, leaves_ofStorage]
      cases directory.follow path with
      | error fault => exact nofun
      | ok entry =>
          show (if directory.identity entry = kept.identity then note [.fileKept path]
            else note [.fileChanged path] >>= fun _ => openAnew directory path).Leaves worker _
          split_ifs
          · intro _
            unfold kept? at hkept
            split_ifs at hkept
            obtain ⟨hcurrent, hsame⟩ := Option.filter_eq_some_iff.mp hkept
            exact ⟨kept, hcurrent, of_decide_eq_true hsame⟩
          · exact hanew

/-- What a task does with the file at hand: a path that is opened becomes the current one, a file is
let go of, and otherwise it stays. -/
structure Moves (directory : Directory) (task : Task) (before : Worker) (succeeded : Bool)
    (after : Worker) : Prop where
  sound : after.Sound
  keepsFiles_eq : after.keepsFiles = before.keepsFiles
  opened : ∀ path, (task, succeeded) = (.openPath path, true) →
    ∃ file, after.current = some file ∧ directory.SamePath file.path path ∧
      directory.follow path = .ok file.entry
  gone : task.letsGo before.keepsFiles = true → after.current = none
  stays : (∀ path, (task, succeeded) ≠ (.openPath path, true)) →
    task.letsGo before.keepsFiles = false → before.SameFile after

theorem Moves.of_sameFile {directory : Directory} {task : Task} {before after : Worker}
    {succeeded : Bool} (h : before.Sound) (hsame : before.SameFile after)
    (hunopened : ∀ path, (task, succeeded) ≠ (.openPath path, true))
    (hstays : task.letsGo before.keepsFiles = false) :
    Moves directory task before succeeded after where
  sound := hsame.sound h
  keepsFiles_eq := hsame.2
  opened path hopened := absurd hopened (hunopened path)
  gone hgoes := by rw [hstays] at hgoes; cases hgoes
  stays _ _ := hsame

theorem Moves.of_letGo {directory : Directory} {task : Task} {before after : Worker}
    {succeeded : Bool} (hgone : after.current = none)
    (hkeeps : after.keepsFiles = before.keepsFiles)
    (hunopened : ∀ path, (task, succeeded) ≠ (.openPath path, true))
    (hgoes : task.letsGo before.keepsFiles = true) :
    Moves directory task before succeeded after where
  sound := sound_of_none hgone
  keepsFiles_eq := hkeeps
  opened path hopened := absurd hopened (hunopened path)
  gone _ := hgone
  stays _ hstays := by rw [hgoes] at hstays; cases hstays

theorem moves_openPath {worker : Worker} (h : worker.Sound) (directory : Directory) (path : Path) :
    Moves directory (.openPath path) worker (worker.perform directory (.openPath path)).1
      (worker.perform directory (.openPath path)).2 := by
  have hopens := openPath_leaves h directory path
  have hpath := openPath_leaves_path directory path worker
  unfold Leaves at hopens hpath
  unfold perform settled
  dsimp only
  generalize (openPath directory path).run worker = outcome at hopens hpath
  obtain ⟨hkeeps, hfollowed⟩ := hopens
  cases hfollow : directory.follow path with
  | error fault =>
      rw [hfollow] at hfollowed
      obtain ⟨hresult, hstate⟩ := hfollowed
      rw [hresult, hstate]
      refine .of_sameFile h (.refl worker) ?_ rfl
      intro other hopened
      cases hopened
  | ok entry =>
      rw [hfollow] at hfollowed
      obtain ⟨hresult, hsound, hreading⟩ := hfollowed
      obtain ⟨file, hcurrent, hsame⟩ := hpath hresult
      have hentry : file.entry = entry := by
        rw [reading, hcurrent] at hreading
        exact Except.ok.inj hreading
      rw [hresult]
      refine ⟨hsound, hkeeps, ?_, ?_, fun hunopened => absurd rfl (hunopened path)⟩
      · intro other hother
        cases hother
        exact ⟨file, hcurrent, hsame, hentry ▸ hfollow⟩
      · intro hgoes
        cases hgoes

/-- **One task** moves the file at hand as it is told to. -/
theorem moves_perform {worker : Worker} (h : worker.Sound) (directory : Directory) (task : Task) :
    Moves directory task worker (worker.perform directory task).1
      (worker.perform directory task).2 := by
  cases task with
  | openPath path => exact moves_openPath h directory path
  | readHeader left =>
      have hread := (readHeader_leaves directory worker).2
      have hleft := (seek_leaves left ((readHeader directory).run worker).state).2.1
      exact .of_sameFile h (hread.trans hleft) nofun rfl
  | readBytes start length =>
      exact .of_sameFile h (readBytes_leaves directory start length worker).2.1 nofun rfl
  | finish =>
      have hfinish : endRead.run worker =
          (if worker.keepsFiles then pure () else letGo : Work Worker Unit).run worker := rfl
      unfold perform settled
      dsimp only
      rw [hfinish]
      cases hkept : worker.keepsFiles with
      | true => exact .of_sameFile h (.refl worker) nofun (by rw [hkept]; rfl)
      | false =>
          obtain ⟨-, hkeeps, hgone⟩ := letGo_leaves worker
          exact .of_letGo hgone hkeeps nofun (by rw [hkept]; rfl)
  | close =>
      obtain ⟨-, hkeeps, hgone⟩ := letGo_leaves worker
      exact .of_letGo hgone hkeeps nofun rfl

/-! ## Any number of tasks -/

/-- The file at hand is the one that the past tells of. -/
structure Tracks (directory : Directory) (keepsFiles : Bool) (past : Past) (worker : Worker) :
    Prop where
  sound : worker.Sound
  keepsFiles_eq : worker.keepsFiles = keepsFiles
  opened : ∀ path, LastOpened keepsFiles past path →
    ∃ file, worker.current = some file ∧ directory.SamePath file.path path ∧
      directory.follow path = .ok file.entry
  unopened : (∀ path, ¬LastOpened keepsFiles past path) → worker.current = none

theorem tracks_fresh (directory : Directory) (keepsFiles : Bool) :
    Tracks directory keepsFiles [] (fresh keepsFiles) where
  sound := sound_fresh keepsFiles
  keepsFiles_eq := rfl
  opened := by
    rintro path ⟨earlier, later, hpast, -⟩
    exact absurd hpast (by simp)
  unopened _ := rfl

namespace Tracks

variable {directory : Directory} {keepsFiles : Bool} {past : Past}

theorem next {before after : Worker} {task : Task} {succeeded : Bool}
    (h : Tracks directory keepsFiles past before)
    (hmoves : Moves directory task before succeeded after) :
    Tracks directory keepsFiles (past ++ [(task, succeeded)]) after := by
  refine ⟨hmoves.sound, hmoves.keepsFiles_eq.trans h.keepsFiles_eq, fun path hlast => ?_,
    fun hnone => ?_⟩
  · rw [lastOpened_append_singleton_iff] at hlast
    rcases hlast with hopened | ⟨hlast, hunopened, hstays⟩
    · exact hmoves.opened path hopened
    · obtain ⟨file, hcurrent, hpath, hfollow⟩ := h.opened path hlast
      have hsame := hmoves.stays hunopened (h.keepsFiles_eq ▸ hstays)
      obtain ⟨later, hlater, hfile⟩ := hsame.symm.exists_current hcurrent
      obtain ⟨hwritten, hentry, -⟩ := OpenFile.mk.inj hfile
      exact ⟨later, hlater, hwritten ▸ hpath, hentry ▸ hfollow⟩
  · simp only [lastOpened_append_singleton_iff, not_or] at hnone
    have hunopened := fun path => (hnone path).1
    cases hgoes : task.letsGo keepsFiles with
    | true => exact hmoves.gone (h.keepsFiles_eq ▸ hgoes)
    | false =>
        have hbefore := h.unopened fun path hlast => (hnone path).2 ⟨hlast, hunopened, hgoes⟩
        have hsame := (hmoves.stays hunopened (h.keepsFiles_eq ▸ hgoes)).1
        rwa [hbefore, Option.map_none, Option.map_eq_none_iff] at hsame

protected theorem after {worker : Worker} (h : Tracks directory keepsFiles past worker)
    (tasks : List Task) :
    Tracks directory keepsFiles (past ++ worker.past directory tasks)
      (worker.after directory tasks) := by
  induction tasks generalizing past worker with
  | nil => exact (List.append_nil past).symm ▸ h
  | cons task tasks ih =>
      have hrest := ih (h.next (moves_perform h.sound directory task))
      rw [List.append_assoc] at hrest
      exact hrest

end Tracks

end Worker

/-! ## Ranges -/

/-- A range that begins where one may be sought is read if it is empty or lies inside. -/
theorem Directory.rangeAt_eq_ok_iff (directory : Directory) (entry : Entry) {start : Nat}
    (hstart : start < Worker.rangeLimit) {length : Nat} {bytes : Bytes} :
    directory.rangeAt entry start length = .ok bytes ↔
      (length = 0 ∨ start + length ≤ (directory.contents entry).length) ∧
        ((directory.contents entry).drop start).take length = bytes := by
  have hrefused : Worker.isRefused (directory.contents entry) start length = true ↔
      (directory.contents entry).length < start + length ∧ Worker.rangeLimit ≤ start + length := by
    simp [Worker.isRefused]
  unfold Directory.rangeAt
  dsimp only
  split_ifs with hrefuse hshort
  · rw [hrefused] at hrefuse
    simp
    omega
  · simp
    omega
  · simp
    omega

namespace Worker

theorem readBytes_leaves_of_none (directory : Directory) (start length : Nat) {worker : Worker}
    (hnone : worker.current = none) :
    (readBytes directory start length).Leaves worker fun result after =>
      result = .error (.storage .notFound) ∧ after = worker := by
  unfold readBytes
  apply (currentFile_leaves worker).bind
  · rintro file after ⟨-, hcurrent⟩
    cases hnone.symm.trans hcurrent
  · rintro error after ⟨rfl, -, rfl⟩
    exact ⟨rfl, rfl⟩

/-- **Ranges do not depend on what a worker did before.**  After every list of tasks the current
file is the one that was opened last and not let go of since, with the same path.  A range of it is
read if it is empty or lies inside the file, wherever the file stands, and then the scratch space
holds just the bytes of the range.  With no file open there is nothing to read, and the scratch
space stays as it is. -/
theorem readBytes_after_tasks (directory : Directory) (keepsFiles : Bool) (tasks : List Task)
    (start : Nat) (hstart : start < 2 ^ 63) (length : Nat) :
    let past := (fresh keepsFiles).past directory tasks
    let worker := (fresh keepsFiles).after directory tasks
    let read := (readBytes directory start length).run worker
    (∀ path, LastOpened keepsFiles past path →
      ∃ file, worker.current = some file ∧
        (directory.full file.path).components = (directory.full path).components ∧
        directory.follow path = .ok file.entry ∧
        ((∃ bytes, read.result = .ok bytes) ↔
          length = 0 ∨ start + length ≤ (directory.contents file.entry).length) ∧
        ∀ bytes, read.result = .ok bytes →
          bytes = ((directory.contents file.entry).drop start).take length ∧
            bytes.length = length ∧ read.state.scratch = bytes) ∧
    ((∀ path, ¬LastOpened keepsFiles past path) →
      worker.current = none ∧ read.result = .error (.storage .notFound) ∧
        read.state.scratch = worker.scratch) := by
  intro past worker read
  have htracks := (tracks_fresh directory keepsFiles).after tasks
  rw [List.nil_append] at htracks
  refine ⟨fun path hlast => ?_, fun hnone => ?_⟩
  · obtain ⟨file, hcurrent, hpath, hfollow⟩ := htracks.opened path hlast
    obtain ⟨hresult, -, hscratch⟩ := readBytes_leaves directory start length worker
    have hrange : read.result = directory.rangeAt file.entry start length := by
      rw [reading_of_current hcurrent] at hresult
      exact hresult
    have hiff (bytes : Bytes) :=
      @Directory.rangeAt_eq_ok_iff directory file.entry start hstart length bytes
    refine ⟨file, hcurrent, hpath, hfollow, ?_, fun bytes hbytes => ?_⟩
    · rw [hrange]
      simp [hiff]
    · obtain ⟨hfits, rfl⟩ := (hiff bytes).mp (hrange ▸ hbytes)
      refine ⟨rfl, ?_, hscratch _ hbytes⟩
      rw [List.length_take, List.length_drop]
      omega
  · have hcurrent : worker.current = none := htracks.unopened hnone
    obtain ⟨hresult, hstate⟩ := readBytes_leaves_of_none directory start length hcurrent
    exact ⟨hcurrent, hresult, congrArg scratch hstate⟩

/-- Two files, neither with a header. -/
def twoFiles : Directory := (Directory.empty.write ⟨"a"⟩ [1, 2, 3, 4, 5]).write ⟨"b"⟩ [9]

/-- Among others a header that cannot be decoded, a range that is too long, and paths that cannot
be opened. -/
def mixedTasks : List Task :=
  [.openPath ⟨"c"⟩, .openPath ⟨"b"⟩, .finish, .openPath ⟨"a"⟩, .readHeader 3, .readBytes 0 5,
    .readBytes 3 9, .openPath ⟨"./a"⟩, .openPath ⟨"a/b"⟩]

/-- Behind the path of a directory a single point does not count, and "a" is current still. -/
theorem readBytes_after_tasks_mixed :
    (LastOpened true ((fresh true).past twoFiles mixedTasks) ⟨"./a"⟩ ∧
      let worker := (fresh true).after twoFiles mixedTasks
      let read := (readBytes twoFiles 1 3).run worker
      worker.current.map (fun file => file.path.written) = some "a" ∧
      worker.current.map (fun file => (twoFiles.full file.path).components) =
          some (Path.components ⟨"snapshots/./a"⟩) ∧
        read.result = .ok [2, 3, 4] ∧ read.state.scratch = [2, 3, 4]) ∧
    ((∀ path, ¬LastOpened false ((fresh false).past twoFiles [.openPath ⟨"a"⟩, .finish]) path) ∧
      let worker := (fresh false).after twoFiles [.openPath ⟨"a"⟩, .finish]
      ((readBytes twoFiles 1 3).run worker).result = .error (.storage .notFound)) := by
  constructor
  · have hlast : LastOpened true ((fresh true).past twoFiles mixedTasks) ⟨"./a"⟩ := by
      refine ⟨((fresh true).past twoFiles mixedTasks).take 7, [(.openPath ⟨"a/b"⟩, false)], rfl, ?_⟩
      simp [Task.letsGo]
    obtain ⟨hopened, -⟩ := readBytes_after_tasks twoFiles true mixedTasks 1 (by decide) 3
    obtain ⟨file, hcurrent, hpath, hfollow, hiff, hbytes⟩ := hopened _ hlast
    have hfile : twoFiles.follow ⟨"./a"⟩ = .ok (.file 0) := rfl
    rw [show file.entry = .file 0 from Except.ok.inj (hfollow.symm.trans hfile)] at hiff hbytes
    obtain ⟨bytes, hresult⟩ := hiff.mpr (.inr (by decide))
    obtain ⟨rfl, -, hscratch⟩ := hbytes bytes hresult
    refine ⟨hlast, rfl, ?_, hresult, hscratch⟩
    rw [hcurrent, Option.map_some, hpath]
    rfl
  · have hpast : (fresh false).past twoFiles [.openPath ⟨"a"⟩, .finish] =
        [(.openPath ⟨"a"⟩, true)] ++ [(.finish, true)] := rfl
    have hnone : ∀ path, ¬LastOpened false
        ((fresh false).past twoFiles [.openPath ⟨"a"⟩, .finish]) path := by
      intro path
      rw [hpast, lastOpened_append_singleton_iff]
      simp [Task.letsGo]
    obtain ⟨-, hunopened⟩ :=
      readBytes_after_tasks twoFiles false [.openPath ⟨"a"⟩, .finish] 1 (by decide) 3
    exact ⟨hnone, (hunopened hnone).2.1⟩

end Worker

end Snapshot
