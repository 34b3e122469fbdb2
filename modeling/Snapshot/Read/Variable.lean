import Snapshot.Output.Buffer
import Snapshot.Worker.Basic

/-!
# Reading variables

A read opens the file, decodes its header, plans the accesses of its expression,
checks the buffer, and only then fetches column data.  Accesses that follow each
other and come from the same column share one range of the file.

Several expressions are read with one worker.  All of them are planned and
checked before the first column is fetched.
-/

namespace Snapshot

open Work

/-! ## Planning -/

/-- The shape of buffer that an expression needs. -/
def shapeFor (expression : Expression) (accesses : List Access) : Shape :=
  match expression with
  | .records => .records
  | .one _ => if accesses.head?.any Access.readsTriples then .triples else .flat

/-- The accesses of the expression that a text spells, if it can be read into
the buffer. -/
def planRead (layout : Layout) (text : String) (buffer : Buffer) :
    Except ReadError (List Access) := do
  let expression ← (Expression.parse text).mapError .fault
  let accesses ← (expression.plan layout).mapError .fault
  buffer.check text (shapeFor expression accesses) layout.count
  pure accesses

/-! ## Fetching -/

/-- A worker and the buffer that it fills. -/
structure Desk where
  worker : Worker
  buffer : Buffer

namespace Desk

/-- Work of the worker alone. -/
def atWorker {α : Type} (work : Work Worker α) : Work Desk α :=
  focus Desk.worker (fun worker desk => { desk with worker := worker }) work

/-- Writes the values of an access into the buffer. -/
def fill (place : Nat) (access : Access) (order : ByteOrder) (raw : Bytes) : Work Desk Unit := do
  let buffer ← ofExcept ((← state).buffer.fill place access order raw)
  change fun desk => { desk with buffer := buffer }

end Desk

/-- Fetches the bytes of a column, unless it is the one fetched last. -/
def fetch (directory : Directory) (layout : Layout) (loaded : Option Nat)
    (column start length : Nat) : Work Worker Unit := do
  if loaded = some column then pure ()
  else do
    note [.columnRead (layout.names.getD column "") start length]
    discard (Worker.readBytes directory start length)

/-- Reads the accesses from position `place` of a plan on; `loaded` is the
column whose bytes the scratch space holds. -/
def carryOut (directory : Directory) (header : Header) :
    Nat → Option Nat → List Access → Work Desk Unit
  | _, _, [] => pure ()
  | place, loaded, access :: rest =>
    match access.source with
    | .stored column start length => do
      Desk.atWorker (fetch directory header.layout loaded column start length)
      Desk.fill place access header.order (← state).worker.scratch
      carryOut directory header (place + 1) (some column) rest
    | .implicitIds start => do
      note [.idsCounted start]
      Desk.fill place access header.order []
      carryOut directory header (place + 1) loaded rest

/-- Reads one expression into the buffer. -/
def readInto (directory : Directory) (path : Path) (text : String) : Work Desk Unit := do
  Desk.atWorker (Worker.openPath directory path)
  let header ← Desk.atWorker (Worker.readHeader directory)
  let accesses ← ofExcept (planRead header.layout text (← state).buffer)
  carryOut directory header 0 none accesses

/-! ## Several expressions -/

/-- A worker and the buffers that it fills one after the other. -/
structure Tray where
  worker : Worker
  buffers : List Buffer

namespace Tray

/-- Work of the worker alone. -/
def atWorker {α : Type} (work : Work Worker α) : Work Tray α :=
  focus Tray.worker (fun worker tray => { tray with worker := worker }) work

/-- Work on one of the buffers. -/
def atBuffer {α : Type} (index : Nat) (work : Work Desk α) : Work Tray α :=
  focus (fun tray => ⟨tray.worker, tray.buffers.getD index (.records [])⟩)
    (fun desk tray => ⟨desk.worker, tray.buffers.set index desk.buffer⟩) work

end Tray

/-- Reads a list of plans into the buffers from number `index` on. -/
def carryOutAll (directory : Directory) (header : Header) :
    Nat → List (List Access) → Work Tray Unit
  | _, [] => pure ()
  | index, accesses :: rest => do
    Tray.atBuffer index (carryOut directory header 0 none accesses)
    carryOutAll directory header (index + 1) rest

/-- Reads each of the expressions into the buffer at its position. -/
def readBatch (directory : Directory) (path : Path) (texts : List String) : Work Tray Unit := do
  Tray.atWorker (Worker.openPath directory path)
  let header ← Tray.atWorker (Worker.readHeader directory)
  let requests := texts.zip (← state).buffers
  let plans ← ofExcept (requests.mapM fun (text, buffer) => planRead header.layout text buffer)
  carryOutAll directory header 0 plans

/-! ## The header alone -/

/-- The header of the file at a path, read without a worker. -/
def readHeader {σ : Type} (directory : Directory) (path : Path) : Work σ Header := do
  let contents ← ofStorage (directory.fetch path)
  let header ← ofFault (Header.ofBytes contents)
  note (header.events contents.length)
  note [.headerRead path header]
  pure header

end Snapshot
