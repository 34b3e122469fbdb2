import Snapshot.Proofs.Read.Plan
import Snapshot.Proofs.Worker.Sound

/-!
# What a read delivers

The outcome of a read as a function of the directory, the request and the buffer.
`deliver` reads the bytes of every access afresh, `readOutcome` and
`batchOutcome` are whole reads.  Nothing in them is a worker.

A sound worker does the same (`readInto_leaves`, `readBatch_leaves`).  Two things
are in the way.  The file may be one that the worker had open already, which is
settled by `Worker.openPath_leaves`.  And accesses to the column that was fetched
last find its bytes in the scratch space; the invariant of the loop is that they
are the bytes of that column (`Loaded`).
-/

namespace Snapshot

open Work

/-! ## Outcomes -/

/-- The bytes that a source takes. -/
def Source.bytes (directory : Directory) (entry : Entry) : Source → Except ReadError Bytes
  | .stored _ start length => directory.rangeAt entry start length
  | .implicitIds _ => .ok []

/-- Carries out a plan from position `place` on.  An error ends it and leaves the values that were
written before. -/
def deliver (directory : Directory) (entry : Entry) (order : ByteOrder) :
    Nat → List Access → Buffer → Except ReadError Unit × Buffer
  | _, [], buffer => (.ok (), buffer)
  | place, access :: rest, buffer =>
    match (access.source.bytes directory entry).bind (buffer.fill place access order) with
    | .ok filled => deliver directory entry order (place + 1) rest filled
    | .error error => (.error error, buffer)

/-- Carries out a list of plans with the buffers from number `index` on. -/
def deliverAll (directory : Directory) (entry : Entry) (order : ByteOrder) :
    Nat → List (List Access) → List Buffer → Except ReadError Unit × List Buffer
  | _, [], buffers => (.ok (), buffers)
  | index, accesses :: rest, buffers =>
    let first := deliver directory entry order 0 accesses (buffers.getD index (.records []))
    let filled := buffers.set index first.2
    match first.1 with
    | .ok () => deliverAll directory entry order (index + 1) rest filled
    | .error error => (.error error, filled)

/-- What is at a path, with its header. -/
def Directory.openedAt (directory : Directory) (path : Path) :
    Except ReadError (Entry × Header) := do
  let entry ← (directory.follow path).mapError .storage
  let header ← directory.headerAt entry
  pure (entry, header)

/-- The result of reading an expression, and the buffer after it. -/
def readOutcome (directory : Directory) (path : Path) (text : String) (buffer : Buffer) :
    Except ReadError Unit × Buffer :=
  match directory.openedAt path with
  | .error error => (.error error, buffer)
  | .ok (entry, header) =>
    match planRead header.layout text buffer with
    | .error error => (.error error, buffer)
    | .ok accesses => deliver directory entry header.order 0 accesses buffer

section

variable {directory : Directory} {path : Path} {text : String} {buffer : Buffer}

theorem readOutcome_of_unopened {error : ReadError}
    (hopened : directory.openedAt path = .error error) :
    readOutcome directory path text buffer = (.error error, buffer) := by
  unfold readOutcome
  rw [hopened]

variable {entry : Entry} {header : Header} (hopened : directory.openedAt path = .ok (entry, header))

include hopened

theorem readOutcome_of_refused {error : ReadError}
    (hplan : planRead header.layout text buffer = .error error) :
    readOutcome directory path text buffer = (.error error, buffer) := by
  unfold readOutcome
  rw [hopened]
  dsimp only
  rw [hplan]

theorem readOutcome_eq_deliver {accesses : List Access}
    (hplan : planRead header.layout text buffer = .ok accesses) :
    readOutcome directory path text buffer =
      deliver directory entry header.order 0 accesses buffer := by
  unfold readOutcome
  rw [hopened]
  dsimp only
  rw [hplan]

end

/-- The result of reading several expressions, and the buffers after it. -/
def batchOutcome (directory : Directory) (path : Path) (texts : List String)
    (buffers : List Buffer) : Except ReadError Unit × List Buffer :=
  match directory.openedAt path with
  | .error error => (.error error, buffers)
  | .ok (entry, header) =>
    match (texts.zip buffers).mapM fun (text, buffer) => planRead header.layout text buffer with
    | .error error => (.error error, buffers)
    | .ok plans => deliverAll directory entry header.order 0 plans buffers

/-! ## Fetching -/

/-- The scratch space holds the bytes of the column that was fetched last. -/
def Loaded (directory : Directory) (entry : Entry) (layout : Layout) (loaded : Option Nat)
    (scratch : Bytes) : Prop :=
  ∀ column, loaded = some column →
    directory.rangeAt entry (layout.columnStart column) (layout.columnLength column) = .ok scratch

section

variable {directory : Directory} {entry : Entry}

theorem atDeskWorker_leaves {α : Type} {work : Work Worker α} {desk : Desk}
    {post : Except ReadError α → Worker → Prop} (h : work.Leaves desk.worker post) :
    (Desk.atWorker work).Leaves desk fun result after =>
      post result after.worker ∧ after.buffer = desk.buffer :=
  ⟨h, rfl⟩

theorem fetch_leaves {layout : Layout} {loaded : Option Nat} {worker : Worker}
    (hreading : worker.reading = .ok entry)
    (hloaded : Loaded directory entry layout loaded worker.scratch) (column : Nat) :
    (fetch directory layout loaded column (layout.columnStart column)
        (layout.columnLength column)).Leaves worker fun result after =>
      worker.SameFile after ∧
        match directory.rangeAt entry (layout.columnStart column) (layout.columnLength column) with
        | .ok bytes => result = .ok () ∧ after.scratch = bytes
        | .error error => result = .error error := by
  unfold fetch
  split_ifs with hsame
  · rw [hloaded column hsame]
    exact ⟨Worker.SameFile.refl worker, rfl, rfl⟩
  · rw [leaves_bind_iff, leaves_note]
    apply (Worker.readBytes_leaves directory _ _ worker).bind
    · intro bytes after hread
      obtain ⟨hbytes, hfile, hscratch⟩ := hread
      rw [hreading] at hbytes
      have hrange : directory.rangeAt entry _ _ = .ok bytes := hbytes.symm
      rw [hrange]
      exact ⟨hfile, rfl, hscratch bytes rfl⟩
    · intro error after hread
      obtain ⟨herror, hfile, -⟩ := hread
      rw [hreading] at herror
      have hrange : directory.rangeAt entry _ _ = .error error := herror.symm
      rw [hrange]
      exact ⟨hfile, rfl⟩

theorem fill_leaves (place : Nat) (access : Access) (order : ByteOrder) (raw : Bytes)
    (desk : Desk) :
    (Desk.fill place access order raw).Leaves desk fun result after =>
      after.worker = desk.worker ∧
        match desk.buffer.fill place access order raw with
        | .ok filled => result = .ok () ∧ after.buffer = filled
        | .error error => result = .error error ∧ after.buffer = desk.buffer := by
  unfold Desk.fill
  rw [leaves_bind_iff, leaves_state]
  dsimp only
  rw [leaves_bind_iff, leaves_ofExcept]
  cases desk.buffer.fill place access order raw with
  | error error => exact ⟨rfl, rfl, rfl⟩
  | ok filled => exact ⟨rfl, rfl, rfl⟩

/-- After an access was filled, what comes next is due; an error leaves the buffer. -/
theorem fillNext_leaves {place : Nat} {access : Access} {order : ByteOrder} {raw : Bytes}
    {desk : Desk} {next : Work Desk Unit} {outcome : Buffer → Except ReadError Unit × Buffer}
    (hnext : ∀ after : Desk, after.worker = desk.worker → next.Leaves after fun result final =>
      desk.worker.SameFile final.worker ∧ (result, final.buffer) = outcome after.buffer) :
    (Desk.fill place access order raw >>= fun _ => next).Leaves desk fun result final =>
      desk.worker.SameFile final.worker ∧ (result, final.buffer) =
        match desk.buffer.fill place access order raw with
        | .ok filled => outcome filled
        | .error error => (.error error, desk.buffer) := by
  apply (fill_leaves place access order raw desk).bind
  · intro done after hdone
    obtain ⟨hworker, hfill⟩ := hdone
    cases hfilled : desk.buffer.fill place access order raw with
    | error error =>
        rw [hfilled] at hfill
        cases hfill.1
    | ok filled =>
        rw [hfilled] at hfill
        rw [← hfill.2]
        exact hnext after hworker
  · intro error after hfailed
    obtain ⟨hworker, hfill⟩ := hfailed
    cases hfilled : desk.buffer.fill place access order raw with
    | ok filled =>
        rw [hfilled] at hfill
        cases hfill.1
    | error found =>
        rw [hfilled] at hfill
        obtain ⟨⟨⟩, hbuffer⟩ := hfill
        rw [hworker, hbuffer]
        exact ⟨Worker.SameFile.refl _, rfl⟩

/-- After a column was fetched, what comes next has its bytes, be they read again or not. -/
theorem fetchNext_leaves {layout : Layout} {loaded : Option Nat} {desk : Desk}
    (hreading : desk.worker.reading = .ok entry)
    (hloaded : Loaded directory entry layout loaded desk.worker.scratch) (column : Nat)
    (next : Bytes → Work Desk Unit) (outcome : Bytes → Except ReadError Unit × Buffer)
    (hnext : ∀ after : Desk, after.worker.reading = .ok entry → after.buffer = desk.buffer →
      Loaded directory entry layout (some column) after.worker.scratch →
        (next after.worker.scratch).Leaves after fun result final =>
          after.worker.SameFile final.worker ∧
            (result, final.buffer) = outcome after.worker.scratch) :
    (Desk.atWorker (fetch directory layout loaded column (layout.columnStart column)
        (layout.columnLength column)) >>= fun _ =>
      state >>= fun found => next found.worker.scratch).Leaves desk fun result final =>
      desk.worker.SameFile final.worker ∧ (result, final.buffer) =
        match directory.rangeAt entry (layout.columnStart column) (layout.columnLength column) with
        | .ok bytes => outcome bytes
        | .error error => (.error error, desk.buffer) := by
  have hfetch := fetch_leaves hreading hloaded column
  cases hfound : directory.rangeAt entry (layout.columnStart column)
    (layout.columnLength column) with
  | error error =>
      rw [hfound] at hfetch
      apply (atDeskWorker_leaves hfetch).bind
      · intro done after hdone
        obtain ⟨⟨-, ⟨⟩⟩, -⟩ := hdone
      · intro found after hfailed
        obtain ⟨⟨hfile, ⟨⟩⟩, hbuffer⟩ := hfailed
        rw [hbuffer]
        exact ⟨hfile, rfl⟩
  | ok bytes =>
      rw [hfound] at hfetch
      apply (atDeskWorker_leaves hfetch).bind
      · intro done after hdone
        obtain ⟨⟨hfile, -, hscratch⟩, hbuffer⟩ := hdone
        have hholds : Loaded directory entry layout (some column) after.worker.scratch := by
          intro other hother
          cases hother
          rw [hfound, hscratch]
        rw [leaves_bind_iff, leaves_state]
        apply (hnext after (hfile.reading_eq.trans hreading) hbuffer hholds).mono
        intro result final hfinal
        obtain ⟨hkept, houtcome⟩ := hfinal
        rw [hscratch] at houtcome
        exact ⟨hfile.trans hkept, houtcome⟩
      · intro error after hfailed
        obtain ⟨⟨-, ⟨⟩, -⟩, -⟩ := hfailed

/-- **The loop of a read** delivers what reading every access afresh delivers. -/
theorem carryOut_leaves {header : Header} {accesses : List Access}
    (hlies : ∀ access ∈ accesses, access.Lies header.layout) (place : Nat) {loaded : Option Nat}
    {desk : Desk} (hreading : desk.worker.reading = .ok entry)
    (hloaded : Loaded directory entry header.layout loaded desk.worker.scratch) :
    (carryOut directory header place loaded accesses).Leaves desk fun result after =>
      desk.worker.SameFile after.worker ∧
        (result, after.buffer) = deliver directory entry header.order place accesses desk.buffer := by
  induction accesses generalizing place loaded desk with
  | nil => exact ⟨Worker.SameFile.refl _, rfl⟩
  | cons access rest ih =>
      obtain ⟨haccess, hrest⟩ := List.forall_mem_cons.mp hlies
      -- Whichever bytes the access has, its values are written and the rest follows.
      have hnext : ∀ (raw : Bytes) (next : Option Nat) (desk : Desk),
          desk.worker.reading = .ok entry →
          Loaded directory entry header.layout next desk.worker.scratch →
          (Desk.fill place access header.order raw >>= fun _ =>
            carryOut directory header (place + 1) next rest).Leaves desk fun result after =>
            desk.worker.SameFile after.worker ∧ (result, after.buffer) =
              match desk.buffer.fill place access header.order raw with
              | .ok filled => deliver directory entry header.order (place + 1) rest filled
              | .error error => (.error error, desk.buffer) := by
        intro raw next desk hreading hloaded
        apply fillNext_leaves
        intro after hworker
        rw [← hworker] at hreading hloaded ⊢
        exact ih hrest (place + 1) hreading hloaded
      unfold carryOut deliver
      cases hsource : access.source with
      | implicitIds start =>
          dsimp only
          rw [leaves_bind_iff, leaves_note]
          exact hnext [] loaded desk hreading hloaded
      | stored column start length =>
          -- The plan reads the very range that the scratch space is known to hold.
          obtain ⟨rfl, rfl⟩ := haccess column start length hsource
          have hfetched := fetchNext_leaves hreading hloaded column
            (fun raw => Desk.fill place access header.order raw >>= fun _ =>
              carryOut directory header (place + 1) (some column) rest)
            (fun raw => match desk.buffer.fill place access header.order raw with
              | .ok filled => deliver directory entry header.order (place + 1) rest filled
              | .error error => (.error error, desk.buffer))
            fun after hafter hbuffer hholds =>
              hbuffer ▸ hnext after.worker.scratch (some column) after hafter hholds
          refine hfetched.mono fun result after hdelivered => ⟨hdelivered.1, ?_⟩
          rw [hdelivered.2]
          dsimp only [Source.bytes]
          cases directory.rangeAt entry (header.layout.columnStart column)
            (header.layout.columnLength column) with
          | error error => rfl
          | ok bytes => rfl

theorem loaded_none (layout : Layout) (scratch : Bytes) :
    Loaded directory entry layout none scratch := by
  intro column h
  cases h

theorem carryOutAll_leaves {header : Header} {plans : List (List Access)}
    (hlies : ∀ accesses ∈ plans, ∀ access ∈ accesses, access.Lies header.layout) (index : Nat)
    {tray : Tray} (hreading : tray.worker.reading = .ok entry) :
    (carryOutAll directory header index plans).Leaves tray fun result after =>
      tray.worker.SameFile after.worker ∧
        (result, after.buffers) =
          deliverAll directory entry header.order index plans tray.buffers := by
  induction plans generalizing index tray with
  | nil => exact ⟨Worker.SameFile.refl _, rfl⟩
  | cons accesses rest ih =>
      obtain ⟨haccesses, hrest⟩ := List.forall_mem_cons.mp hlies
      -- Every plan begins with nothing fetched, so only the file at hand is carried along.
      have hfirst : (carryOut directory header 0 none accesses).Leaves
          ⟨tray.worker, tray.buffers.getD index (.records [])⟩ _ :=
        carryOut_leaves haccesses 0 hreading (loaded_none header.layout tray.worker.scratch)
      unfold carryOutAll deliverAll
      rw [leaves_bind_iff]
      refine leaves_focus_iff.mpr (hfirst.mono ?_)
      intro result after hone
      obtain ⟨hfile, hdelivered⟩ := hone
      rw [← hdelivered]
      cases result with
      | error error => exact ⟨hfile, rfl⟩
      | ok u =>
          have hsame : after.worker.reading = .ok entry := by
            rw [hfile.reading_eq, hreading]
          have hnext : (carryOutAll directory header (index + 1) rest).Leaves
              ⟨after.worker, tray.buffers.set index after.buffer⟩ _ := ih hrest (index + 1) hsame
          apply hnext.mono
          intro last final hothers
          obtain ⟨hkept, hlast⟩ := hothers
          exact ⟨hfile.trans hkept, hlast⟩

end

/-! ## Whole reads -/

/-- A read begins by opening its path and reading the header there.  What comes of it depends on
the directory alone. -/
theorem begin_leaves {σ β : Type} (get : σ → Worker) (set : Worker → σ → σ)
    (hget : ∀ worker s, get (set worker s) = worker)
    (hset : ∀ worker other s, set worker (set other s) = set worker s)
    {directory : Directory} {path : Path} {next : Header → Work σ β} {s : σ}
    {post : Except ReadError β → σ → Prop} (hsound : (get s).Sound)
    (hok : ∀ entry header after, directory.openedAt path = .ok (entry, header) → after.Sound →
      after.reading = .ok entry → (next header).Leaves (set after s) post)
    (herror : ∀ error after, directory.openedAt path = .error error → after.Sound →
      post (.error error) (set after s)) :
    (focus get set (Worker.openPath directory path) >>= fun _ =>
      focus get set (Worker.readHeader directory) >>= next).Leaves s post := by
  rw [leaves_bind_iff, leaves_focus_iff]
  apply (Worker.openPath_leaves hsound directory path).mono
  intro result after hopens
  replace hopens := hopens.2
  cases hfollow : directory.follow path with
  | error fault =>
      have hopened : directory.openedAt path = .error (.storage fault) := by
        unfold Directory.openedAt
        rw [hfollow]
        rfl
      rw [hfollow] at hopens
      obtain ⟨rfl, rfl⟩ := hopens
      exact herror _ _ hopened hsound
  | ok entry =>
      have hopened : directory.openedAt path =
          (directory.headerAt entry).bind fun header => .ok (entry, header) := by
        unfold Directory.openedAt
        rw [hfollow]
        rfl
      rw [hfollow] at hopens
      obtain ⟨rfl, hafter, hreading⟩ := hopens
      dsimp only
      rw [leaves_bind_iff, leaves_focus_iff, hget]
      apply (Worker.readHeader_leaves directory after).mono
      intro found final hread
      obtain ⟨hfound, hsame⟩ := hread
      have hheader : found = directory.headerAt entry := by
        rw [hfound, hreading]
        rfl
      have hfinal := hsame.sound hafter
      have hstill : final.reading = .ok entry := hsame.reading_eq.trans hreading
      rw [← hheader] at hopened
      rw [hset]
      cases found with
      | error error => exact herror error final hopened hfinal
      | ok header => exact hok entry header final hopened hfinal hstill

/-- **A read with a sound worker** has the outcome of the request, and leaves a sound worker. -/
theorem readInto_leaves {worker : Worker} (hsound : worker.Sound) (directory : Directory)
    (path : Path) (text : String) (buffer : Buffer) :
    (readInto directory path text).Leaves ⟨worker, buffer⟩ fun result after =>
      after.worker.Sound ∧
        (result, after.buffer) = readOutcome directory path text buffer := by
  unfold readInto readOutcome
  refine begin_leaves Desk.worker (fun worker desk => { desk with worker := worker })
    (fun _ _ => rfl) (fun _ _ _ => rfl) hsound ?_ ?_
  · intro entry header after hopened hafter hreading
    rw [leaves_bind_iff, leaves_state]
    dsimp only
    rw [leaves_bind_iff, leaves_ofExcept, hopened]
    dsimp only
    cases hplan : planRead header.layout text buffer with
    | error error => exact ⟨hafter, rfl⟩
    | ok accesses =>
        -- Whatever an earlier read left in the scratch space, no column counts as fetched.
        have hloaded : Loaded directory entry header.layout none after.scratch :=
          loaded_none header.layout after.scratch
        apply (carryOut_leaves (planRead_lies hplan) 0 hreading hloaded).mono
        intro result final hread
        obtain ⟨hfile, hdelivered⟩ := hread
        exact ⟨hfile.sound hafter, hdelivered⟩
  · intro error after hopened hafter
    rw [hopened]
    exact ⟨hafter, rfl⟩

theorem mapM_lies {layout : Layout} {requests : List (String × Buffer)}
    {plans : List (List Access)}
    (hplans : (requests.mapM fun (text, buffer) => planRead layout text buffer) = .ok plans) :
    ∀ accesses ∈ plans, ∀ access ∈ accesses, access.Lies layout := by
  induction requests generalizing plans with
  | nil =>
      cases hplans
      exact fun _ h => absurd h List.not_mem_nil
  | cons request rest ih =>
      rw [List.mapM_cons, bind_eq_ok_iff] at hplans
      obtain ⟨first, hfirst, hrest⟩ := hplans
      obtain ⟨others, hothers, ⟨⟩⟩ := bind_eq_ok_iff.mp hrest
      exact List.forall_mem_cons.mpr ⟨planRead_lies hfirst, ih hothers⟩

/-- **A read of several expressions with a sound worker** has the outcome of the requests. -/
theorem readBatch_leaves {worker : Worker} (hsound : worker.Sound) (directory : Directory)
    (path : Path) (texts : List String) (buffers : List Buffer) :
    (readBatch directory path texts).Leaves ⟨worker, buffers⟩ fun result after =>
      after.worker.Sound ∧
        (result, after.buffers) = batchOutcome directory path texts buffers := by
  unfold readBatch batchOutcome
  refine begin_leaves Tray.worker (fun worker tray => { tray with worker := worker })
    (fun _ _ => rfl) (fun _ _ _ => rfl) hsound ?_ ?_
  · intro entry header after hopened hafter hreading
    rw [leaves_bind_iff, leaves_state]
    dsimp only
    rw [leaves_bind_iff, leaves_ofExcept, hopened]
    dsimp only
    cases hplans : (texts.zip buffers).mapM fun (text, buffer) =>
      planRead header.layout text buffer with
    | error error => exact ⟨hafter, rfl⟩
    | ok plans =>
        apply (carryOutAll_leaves (mapM_lies hplans) 0 hreading).mono
        intro result final hread
        obtain ⟨hfile, hdelivered⟩ := hread
        exact ⟨hfile.sound hafter, hdelivered⟩
  · intro error after hopened hafter
    rw [hopened]
    exact ⟨hafter, rfl⟩

/-! ## The header alone -/

/-- The header that is read without a worker; nothing is changed by it. -/
theorem readHeader_leaves {σ : Type} (directory : Directory) (path : Path) (s : σ) :
    (readHeader directory path).Leaves s fun result after =>
      (result = do
        let contents ← (directory.fetch path).mapError .storage
        (Header.ofBytes contents).mapError .fault) ∧ after = s := by
  unfold readHeader
  rw [leaves_bind_iff, leaves_ofStorage]
  cases (directory.fetch path).mapError ReadError.storage with
  | error error => exact ⟨rfl, rfl⟩
  | ok contents =>
      dsimp only
      rw [leaves_bind_iff, leaves_ofFault]
      cases hheader : (Header.ofBytes contents).mapError ReadError.fault with
      | error error => exact ⟨hheader.symm, rfl⟩
      | ok header => exact ⟨hheader.symm, rfl⟩

end Snapshot
