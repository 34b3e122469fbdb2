import Mathlib.Data.List.Dedup
import Snapshot.Proofs.Read.Acceptance

/-!
# Columns are shared without a trace

Accesses that follow each other and come from the same column share one range of the file.  The
reference is the loop that shares nothing, `carryOutAfresh`: it reads the range of every access
before it writes its values.  Both loops deliver the same, whatever stood in the scratch space of
either worker.

What the shared loop saves is seen in the log alone.  `Work.Reads` says which ranges a piece of work
has read where it succeeds; for the loop these are the ranges of `columnsFetched`.  In a plan the
accesses to a column stand side by side, so no column is fetched twice.
-/

namespace Snapshot

open Work

/-! ## Reading every range afresh -/

/-- The bytes that a source takes, read by the worker. -/
def Source.readAfresh (directory : Directory) : Source → Work Worker Bytes
  | .stored _ start length => Worker.readBytes directory start length
  | .implicitIds _ => pure []

/-- Carries out a plan from position `place` on, and reads the range of every access. -/
def carryOutAfresh (directory : Directory) (order : ByteOrder) :
    Nat → List Access → Work Desk Unit
  | _, [] => pure ()
  | place, access :: rest => do
    let raw ← Desk.atWorker (access.source.readAfresh directory)
    Desk.fill place access order raw
    carryOutAfresh directory order (place + 1) rest

section

variable {directory : Directory} {entry : Entry}

theorem readAfresh_leaves {worker : Worker} (hreading : worker.reading = .ok entry)
    (source : Source) :
    (source.readAfresh directory).Leaves worker fun result after =>
      result = source.bytes directory entry ∧ worker.SameFile after := by
  cases source with
  | stored column start length =>
      apply (Worker.readBytes_leaves directory start length worker).mono
      intro result after hread
      obtain ⟨hbytes, hfile, -⟩ := hread
      rw [hreading] at hbytes
      exact ⟨hbytes, hfile⟩
  | implicitIds start => exact ⟨rfl, Worker.SameFile.refl worker⟩

/-- The loop that shares nothing delivers what its name says. -/
theorem carryOutAfresh_leaves (order : ByteOrder) (accesses : List Access) (place : Nat)
    {desk : Desk} (hreading : desk.worker.reading = .ok entry) :
    (carryOutAfresh directory order place accesses).Leaves desk fun result after =>
      desk.worker.SameFile after.worker ∧
        (result, after.buffer) = deliver directory entry order place accesses desk.buffer := by
  induction accesses generalizing place desk with
  | nil => exact ⟨Worker.SameFile.refl _, rfl⟩
  | cons access rest ih =>
      unfold carryOutAfresh deliver
      apply (atDeskWorker_leaves (readAfresh_leaves hreading access.source)).bind
      · intro raw after hread
        obtain ⟨⟨hbytes, hfile⟩, hbuffer⟩ := hread
        have hafter := hfile.reading_eq.trans hreading
        rw [← hbytes]
        apply (fillNext_leaves fun filled hworker =>
          (hworker ▸ ih (place + 1) (hworker ▸ hafter) :)).mono
        intro result final hfinal
        obtain ⟨hkept, hdelivered⟩ := hfinal
        rw [hbuffer] at hdelivered
        exact ⟨hfile.trans hkept, hdelivered⟩
      · intro error after hfailed
        obtain ⟨⟨hbytes, hfile⟩, hbuffer⟩ := hfailed
        rw [← hbytes, hbuffer]
        exact ⟨hfile, rfl⟩

end

/-! ## The ranges that were read -/

/-- The range of a file whose bytes an event reports as read. -/
def Event.range? : Event → Option (Nat × Nat)
  | bytesRead start length => some (start, length)
  | _ => none

/-- The ranges that were read, in their order. -/
def Outcome.ranges {σ α : Type} (outcome : Outcome σ α) : List (Nat × Nat) :=
  outcome.log.filterMap Event.range?

namespace Work

variable {σ τ α β : Type}

/-- Where the work succeeds, it has read these ranges and no others. -/
def Reads (work : Work σ α) (ranges : List (Nat × Nat)) : Prop :=
  ∀ s a, (work.run s).result = .ok a → (work.run s).ranges = ranges

protected theorem Reads.pure (a : α) : (pure a : Work σ α).Reads [] := fun _ _ _ => rfl

theorem Reads.bind {work : Work σ α} {next : α → Work σ β} {first second : List (Nat × Nat)}
    (hwork : work.Reads first) (hnext : ∀ a, (next a).Reads second) :
    (work >>= next).Reads (first ++ second) := by
  intro s b h
  have hfirst := hwork s
  rw [run_bind] at h ⊢
  cases hresult : (work.run s).result with
  | error error =>
      rw [hresult] at h
      cases h
  | ok a =>
      rw [hresult] at h hfirst
      have hsecond := hnext a _ b h
      unfold Outcome.ranges at hfirst hsecond ⊢
      rw [List.filterMap_append, hfirst a rfl, hsecond]

/-- A step that reads nothing ahead of others. -/
theorem Reads.after {work : Work σ α} {next : α → Work σ β} {ranges : List (Nat × Nat)}
    (hwork : work.Reads []) (hnext : ∀ a, (next a).Reads ranges) : (work >>= next).Reads ranges :=
  hwork.bind hnext

theorem reads_state : (state : Work σ σ).Reads [] := fun _ _ _ => rfl

theorem reads_change (f : σ → σ) : (change f).Reads [] := fun _ _ _ => rfl

theorem reads_note (events : List Event) :
    (note events : Work σ Unit).Reads (events.filterMap Event.range?) := fun _ _ _ => rfl

theorem reads_fail (error : ReadError) (ranges : List (Nat × Nat)) :
    (fail error : Work σ α).Reads ranges := fun _ _ h => nomatch h

theorem reads_ofExcept (value : Except ReadError α) : (ofExcept value : Work σ α).Reads [] :=
  fun _ _ _ => rfl

theorem Reads.focus {get : σ → τ} {set : τ → σ → σ} {work : Work τ α} {ranges : List (Nat × Nat)}
    (h : work.Reads ranges) : (focus get set work).Reads ranges :=
  fun s a hresult => h (get s) a hresult

end Work

theorem Worker.currentFile_reads : Worker.currentFile.Reads [] := by
  refine reads_state.after fun worker => ?_
  cases worker.current with
  | some file => exact .pure file
  | none => exact reads_fail _ _

/-- A range that was read is reported once. -/
theorem Worker.readBytes_reads (directory : Directory) (start length : Nat) :
    (Worker.readBytes directory start length).Reads [(start, length)] := by
  have hseek : ∀ place, (Worker.seek place).Reads [] := fun place => reads_change _
  have hreadOn : (Worker.readOn directory length).Reads [] :=
    Worker.currentFile_reads.after fun file => (hseek _).after fun _ => .pure _
  refine Worker.currentFile_reads.after fun file => (reads_change _).after fun _ => ?_
  split_ifs
  · exact (hseek start).after fun _ => reads_fail _ _
  · exact reads_fail _ _
  · refine (hseek start).after fun _ => hreadOn.after fun found => (reads_change _).after fun _ => ?_
    split_ifs
    · exact reads_fail _ _
    · exact (reads_note _).bind fun _ => .pure _

theorem fetch_reads (directory : Directory) (layout : Layout) (loaded : Option Nat)
    (column start length : Nat) :
    (fetch directory layout loaded column start length).Reads
      (if loaded = some column then [] else [(start, length)]) := by
  unfold fetch
  split_ifs
  · exact .pure ()
  · exact (reads_note _).after fun _ =>
      (Worker.readBytes_reads directory start length).bind fun _ => .pure _

theorem fill_reads (place : Nat) (access : Access) (order : ByteOrder) (raw : Bytes) :
    (Desk.fill place access order raw).Reads [] :=
  reads_state.after fun _ => (reads_ofExcept _).after fun _ => reads_change _

/-! ## Columns -/

/-- The column that an access reads, if it is stored. -/
def Access.column? (access : Access) : Option Nat :=
  match access.source with
  | .stored column _ _ => some column
  | .implicitIds _ => none

/-- The columns that are fetched for a list of accesses; `loaded` is the one that was fetched
last. -/
def columnsFetched : Option Nat → List Access → List Nat
  | _, [] => []
  | loaded, access :: rest =>
    match access.column? with
    | none => columnsFetched loaded rest
    | some column =>
      (if loaded = some column then [] else [column]) ++ columnsFetched (some column) rest

/-- The bytes that a column takes. -/
def Layout.columnRange (layout : Layout) (column : Nat) : Nat × Nat :=
  (layout.columnStart column, layout.columnLength column)

/-- **The loop of a read** reads the range of a column where it was not the one before. -/
theorem carryOut_reads (directory : Directory) (header : Header) {accesses : List Access}
    (hlies : ∀ access ∈ accesses, access.Lies header.layout) (place : Nat) (loaded : Option Nat) :
    (carryOut directory header place loaded accesses).Reads
      ((columnsFetched loaded accesses).map header.layout.columnRange) := by
  induction accesses generalizing place loaded with
  | nil => exact .pure ()
  | cons access rest ih =>
      obtain ⟨haccess, hrest⟩ := List.forall_mem_cons.mp hlies
      unfold carryOut columnsFetched Access.column?
      cases hsource : access.source with
      | implicitIds start =>
          exact (reads_note _).after fun _ => (fill_reads place access header.order []).after
            fun _ => ih hrest (place + 1) loaded
      | stored column start length =>
          obtain ⟨rfl, rfl⟩ := haccess column start length hsource
          dsimp only
          rw [List.map_append]
          have hfetched := fetch_reads directory header.layout loaded column
            (header.layout.columnStart column) (header.layout.columnLength column)
          have hranges : (if loaded = some column then [] else [column]).map
              header.layout.columnRange = if loaded = some column then [] else
                [(header.layout.columnStart column, header.layout.columnLength column)] := by
            split_ifs <;> rfl
          rw [hranges]
          exact hfetched.focus.bind fun _ => reads_state.after fun desk =>
            (fill_reads place access header.order _).after fun _ =>
              ih hrest (place + 1) (some column)

theorem Selection.column?_access (layout : Layout) (selection : Selection) :
    (selection.access layout).column? = layout.find? selection.name := by
  unfold Selection.access
  cases layout.find? selection.name with
  | none => rfl
  | some column => rfl

/-- A selection of a component is checked to have a column. -/
theorem Selection.exists_column_of_check {layout : Layout} {name : String} {index : Nat}
    (hcheck : Selection.check layout ⟨name, some index⟩ = .ok ()) :
    ∃ column, layout.find? name = some column := by
  obtain ⟨-, htriple⟩ := (Selection.check_eq_ok_iff.mp hcheck).2 index rfl
  rw [Option.any_eq_true] at htriple
  obtain ⟨column, hfind, -⟩ := htriple
  exact ⟨column, hfind⟩

/-- Columns that were found by different names are different. -/
theorem Layout.ne_of_find? {layout : Layout} {first second : String} {column other : Nat}
    (hfirst : layout.find? first = some column) (hsecond : layout.find? second = some other)
    (hne : first ≠ second) : column ≠ other := by
  rintro rfl
  have hname := Layout.find?_eq_some hfirst
  rw [Layout.find?_eq_some hsecond] at hname
  exact hne (Option.some.inj hname).symm

/-- **No column of a plan is fetched twice**: the accesses to it stand side by side. -/
theorem columnsFetched_parts {layout : Layout} {expression : Expression}
    (hchecks : ∀ selection ∈ expression.parts, selection.check layout = .ok ()) :
    columnsFetched none (expression.parts.map (Selection.access layout)) =
      ((expression.parts.map (Selection.access layout)).filterMap Access.column?).dedup := by
  cases expression with
  | one selection =>
      cases hcolumn : (selection.access layout).column? with
      | none => simp [Expression.parts, columnsFetched, hcolumn]
      | some column => simp [Expression.parts, columnsFetched, hcolumn]
  | records =>
      obtain ⟨position, hposition⟩ := Selection.exists_column_of_check
        (hchecks ⟨positionColumn, some 0⟩ (by decide))
      obtain ⟨velocity, hvelocity⟩ := Selection.exists_column_of_check
        (hchecks ⟨velocityColumn, some 0⟩ (by decide))
      have hmoves : position ≠ velocity := Layout.ne_of_find? hposition hvelocity (by decide)
      cases hid : layout.find? identifierColumn with
      | none =>
          simp [Expression.parts, recordParts, columnsFetched, Selection.column?_access, hposition,
            hvelocity, hid, hmoves]
      | some id =>
          have hplace : position ≠ id := Layout.ne_of_find? hposition hid (by decide)
          have hspeed : velocity ≠ id := Layout.ne_of_find? hvelocity hid (by decide)
          simp [Expression.parts, recordParts, columnsFetched, Selection.column?_access, hposition,
            hvelocity, hid, hmoves, hplace, hspeed]

/-- **Sharing cannot be seen**, but in the number of reads.  For a file with a header, an expression
with its plan and a buffer that fits, the loop of a read succeeds and leaves the buffer that reading
every range afresh leaves, whatever was in the scratch space of either worker; and it reads the
range of each column of the plan exactly once. -/
theorem carryOut_shares {directory : Directory} {entry : Entry} {header : Header}
    (hheader : directory.headerAt entry = .ok header)
    (hsize : (directory.contents entry).length ≤ sizeLimit) {expression : Expression}
    {accesses : List Access} (hplan : expression.plan header.layout = .ok accesses)
    {buffer : Buffer} (hshape : buffer.shape = shapeFor expression accesses)
    (hlength : buffer.length = header.layout.count) {worker other : Worker}
    (hworker : worker.reading = .ok entry) (hother : other.reading = .ok entry) :
    let shared := (carryOut directory header 0 none accesses).run ⟨worker, buffer⟩
    let afresh := (carryOutAfresh directory header.order 0 accesses).run ⟨other, buffer⟩
    shared.result = .ok () ∧ afresh.result = .ok () ∧
      shared.state.buffer = afresh.state.buffer ∧
      shared.ranges = (accesses.filterMap Access.column?).dedup.map header.layout.columnRange := by
  intro shared afresh
  obtain ⟨hregular, hinside⟩ : header.layout.Regular ∧ header.layout.dataStart +
      header.layout.extentBefore header.layout.columns ≤ (directory.contents entry).length := by
    cases entry with
    | directory place => cases hheader
    | file number => exact Header.regular_of_ofBytes hsize (mapError_eq_ok_iff.mp hheader)
  obtain ⟨u, hcheck, haccesses⟩ := bind_eq_ok_iff.mp hplan
  obtain rfl := Except.ok.inj haccesses
  have hchecks := forM_eq_ok_iff.mp hcheck
  have hlies : ∀ access ∈ expression.parts.map (Selection.access header.layout),
      access.Lies header.layout :=
    List.forall_mem_map.mpr fun selection _ => selection.access_lies header.layout
  have hdelivered := deliver_of_checks hregular hinside rfl hchecks hshape hlength
  have hshared : (shared.result, shared.state.buffer) = _ :=
    (carryOut_leaves hlies 0 hworker (loaded_none header.layout worker.scratch)).2
  have hafresh : (afresh.result, afresh.state.buffer) = _ :=
    (carryOutAfresh_leaves header.order _ 0 hother).2
  rw [hdelivered, Prod.mk.injEq] at hshared hafresh
  refine ⟨hshared.1, hafresh.1, hshared.2.trans hafresh.2.symm, ?_⟩
  rw [← columnsFetched_parts hchecks]
  exact carryOut_reads directory header hlies 0 none _ _ hshared.1

/-- A directory with a file that stores one particle. -/
def recordDirectory : Directory := Directory.empty.write ⟨"a"⟩ (Layout.recordFile 1)

/-- A worker that has this file open, with something in its scratch space. -/
def recordWorker (scratch : Bytes) : Worker :=
  ⟨scratch, some ⟨⟨"a"⟩, .file 0, recordDirectory.identity (.file 0), 5⟩, true⟩

theorem carryOut_shares_recordFile :
    let header := (Layout.recordSection 1).toHeader 196
    let buffer := Buffer.records [⟨9, .replicate 9, .replicate 9⟩]
    ∃ accesses, Expression.records.plan header.layout = .ok accesses ∧ accesses.length = 7 ∧
      let shared := (carryOut recordDirectory header 0 none accesses).run ⟨recordWorker [], buffer⟩
      let afresh := (carryOutAfresh recordDirectory header.order 0 accesses).run
        ⟨recordWorker [1, 2, 3], buffer⟩
      (shared.result = .ok () ∧ afresh.result = .ok () ∧
        shared.state.buffer = afresh.state.buffer ∧
        shared.ranges =
          (accesses.filterMap Access.column?).dedup.map header.layout.columnRange) ∧
      shared.state.buffer = .records [⟨0x1f1e1d1c1b1a1918, ⟨0x03020100, 0x07060504, 0x0b0a0908⟩,
        ⟨0x0f0e0d0c, 0x13121110, 0x17161514⟩⟩] ∧
      shared.ranges = [(196, 12), (208, 12), (220, 8)] := by
  intro header buffer
  have hheader : recordDirectory.headerAt (.file 0) = .ok header := by decide +kernel
  have hsize : (recordDirectory.contents (.file 0)).length ≤ sizeLimit := by decide +kernel
  have hplan : Expression.records.plan header.layout =
      .ok (recordParts.map (Selection.access header.layout)) := by decide +kernel
  refine ⟨_, hplan, rfl, carryOut_shares hheader hsize hplan rfl rfl rfl rfl, ?_, ?_⟩
  · decide +kernel
  · decide +kernel

end Snapshot
