import Snapshot.Header.Basic
import Snapshot.Store.Directory

/-!
# The log

Every event that is worth a line in the log, and the line for it.
-/

namespace Snapshot

/-- How much an event matters. -/
inductive Level where
  | trace
  | debug
  | info
  | warn

/-- The name of a level. -/
def Level.text : Level → String
  | trace => "TRACE"
  | debug => "DEBUG"
  | info => "INFO"
  | warn => "WARN"

/-- What is logged. -/
inductive Event where
  /-- Bytes follow the last column. -/
  | trailingBytes (columnsEnd length : Nat)
  | headerDecoded (header : Header)
  | headerRead (path : Path) (header : Header)
  | columnRead (name : String) (start length : Nat)
  /-- Identifiers are counted up from `start`. -/
  | idsCounted (start : UInt64)
  | bytesRead (start length : Nat)
  | fileKept (path : Path)
  | fileChanged (path : Path)
  | fileOpened (path : Path)
  | fileClosed (path : Path)
  | workerAcquired (slot : Nat)
  | workerReleased (slot : Nat)
  | ownWorkerMade
  | poolFilled (workers : Nat)
  | poolRefilled (busy workers : Nat)
  | poolEmptied (workers : Nat)

namespace Event

/-- How much the event matters. -/
def level : Event → Level
  | trailingBytes .. | poolRefilled .. => .warn
  | poolFilled _ | poolEmptied _ => .info
  | idsCounted _ | bytesRead .. | fileKept _ | fileClosed _ => .trace
  | _ => .debug

/-- The event in words. -/
def text : Event → String
  | trailingBytes columnsEnd length =>
    s!"{length - columnsEnd} trailing bytes after the last column " ++
      s!"(data ends at {columnsEnd}, file is {length} bytes)"
  | headerDecoded header =>
    s!"Decoded guppy v{header.version} header: {header.layout.count} particles, " ++
      s!"{header.layout.columns} columns, data at {header.layout.dataStart}"
  | headerRead path header =>
    s!"Read header of {path.written}: version {header.version}, " ++
      s!"{header.layout.count} particles, {header.layout.columns} variables"
  | columnRead name start length =>
    s!"Reading column '{name}' ({length} bytes at offset {start})"
  | idsCounted start => s!"Synthesizing ids from {start}"
  | bytesRead start length => s!"Read {length} bytes at offset {start}"
  | fileKept path => s!"Reusing open handle for {path.written}"
  | fileChanged path => s!"{path.written} changed since it was opened"
  | fileOpened path => s!"Opened {path.written}"
  | fileClosed path => s!"Closed {path.written}"
  | workerAcquired slot => s!"Acquired worker {slot}"
  | workerReleased slot => s!"Released worker {slot}"
  | ownWorkerMade => "Created private worker"
  | poolFilled workers => s!"Initialized worker pool with {workers} workers"
  | poolRefilled busy workers =>
    s!"Re-initializing worker pool while {busy} of {workers} workers are in use"
  | poolEmptied workers => s!"Shut down worker pool with {workers} workers"

/-- The line for an event. -/
def line (event : Event) : String :=
  event.level.text ++ " " ++ event.text

end Event

/-- What is logged when the header of a file of `length` bytes was decoded. -/
def Header.events (header : Header) (length : Nat) : List Event :=
  let columnsEnd := header.layout.columnsEnd
  let trailing := if columnsEnd < length then [.trailingBytes columnsEnd length] else []
  trailing ++ [.headerDecoded header]

end Snapshot
