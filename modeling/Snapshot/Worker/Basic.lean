import Snapshot.Header.Decode
import Snapshot.Read.Work

/-!
# Workers

A worker owns scratch space and has at most one file open.  If it keeps files, a
file that is asked for again is not opened again, provided that its path still
leads to the file with the same identity; otherwise the path is followed anew.
A failure to open leaves the file that was open before.  Whatever is read comes
from the file that was opened, even where its path leads elsewhere by then.  A
directory can be opened like a file, but nothing can be read of it.

An open file stands at a place, from which it is read on, and every read moves it.
A read first takes the file to the place where it starts: a header to the
beginning, a range to its first byte.  The scratch space takes the length of the
last range that was asked for; a range that reaches past the end of the file leaves
the bytes that were there at its start.
-/

namespace Snapshot

/-- A file that a worker has open. -/
structure OpenFile where
  /-- The path that it was opened with. -/
  path : Path
  /-- What is read, wherever the path leads by now. -/
  entry : Entry
  /-- The identity that it had when it was opened. -/
  identity : Identity
  /-- The place from which it is read on. -/
  place : Nat

/-- The state of a worker. -/
structure Worker where
  scratch : Bytes
  current : Option OpenFile
  keepsFiles : Bool

namespace Worker

/-- A worker that has done nothing yet. -/
def fresh (keepsFiles : Bool) : Worker := ⟨[], none, keepsFiles⟩

open Work

/-- Follows a path and takes the file there. -/
def openAnew (directory : Directory) (path : Path) : Work Worker Unit := do
  let entry ← ofStorage (directory.follow path)
  note [.fileOpened path]
  change fun worker =>
    { worker with current := some ⟨path, entry, directory.identity entry, 0⟩ }

/-- The file that is open and that the path would be looked up for. -/
def kept? (worker : Worker) (directory : Directory) (path : Path) : Option OpenFile :=
  if worker.keepsFiles then
    worker.current.filter fun file => directory.SamePath file.path path
  else none

/-- Makes the file at a path the current one. -/
def openPath (directory : Directory) (path : Path) : Work Worker Unit := do
  match (← state).kept? directory path with
  | none => openAnew directory path
  | some kept =>
    let entry ← ofStorage (directory.follow path)
    if directory.identity entry = kept.identity then note [.fileKept path]
    else do
      note [.fileChanged path]
      openAnew directory path

/-- What is open. -/
def currentFile : Work Worker OpenFile := do
  match (← state).current with
  | some file => pure file
  | none => fail (.storage .notFound)

/-- Takes the current file to a place. -/
def seek (place : Nat) : Work Worker Unit :=
  change fun worker =>
    { worker with current := worker.current.map fun file => { file with place := place } }

/-- Headers are read ahead in pieces of so many bytes. -/
def pieceSize : Nat := 8192

/-- The header of the current file.  Reading ahead leaves the file behind the first piece,
or at its end; a header that takes more pieces leaves it further on. -/
def readHeader (directory : Directory) : Work Worker Header := do
  let file ← currentFile
  let stream : Stream := ⟨directory.contents file.entry, file.place⟩
  seek (min stream.contents.length pieceSize)
  match file.entry with
  | .directory _ => fail (.fault (.storage .isADirectory))
  | .file _ => do
    let header ← ofFault (Header.decode stream stream.contents.length)
    note (header.events stream.contents.length)
    pure header

/-- The bytes with a given length: cut off, or filled up with zeros. -/
def resize (bytes : Bytes) (length : Nat) : Bytes :=
  bytes.take length ++ List.replicate (length - bytes.length) 0

/-- No range may reach this place.  Files end before it. -/
def rangeLimit : Nat := 0x8000000000000000

/-- The range is not one that storage takes: it reaches the limit, past the end of
the file. -/
def isRefused (contents : Bytes) (start length : Nat) : Bool :=
  contents.length < start + length && rangeLimit ≤ start + length

/-- Reads the current file on from where it stands, no further than its end. -/
def readOn (directory : Directory) (length : Nat) : Work Worker Bytes := do
  let file ← currentFile
  let stream : Stream := ⟨directory.contents file.entry, file.place⟩
  let found := stream.unread.take length
  seek (file.place + found.length)
  pure found

/-- Reads a range of the current file into the scratch space. -/
def readBytes (directory : Directory) (start length : Nat) : Work Worker Bytes := do
  let file ← currentFile
  change fun worker => { worker with scratch := resize worker.scratch length }
  if isRefused (directory.contents file.entry) start length then do
    if start < rangeLimit then seek start else pure ()
    fail (.storage .badArgument)
  else do
    seek start
    let found ← readOn directory length
    change fun worker => { worker with scratch := found ++ worker.scratch.drop found.length }
    if found.length < length then fail (.storage file.entry.endFault)
    else do
      note [.bytesRead start length]
      pure found

/-- Lets go of the current file. -/
def letGo : Work Worker Unit := do
  match (← state).current with
  | none => pure ()
  | some file => do
    note [.fileClosed file.path]
    change fun worker => { worker with current := none }

/-- Ends a read: a worker that does not keep files lets go of its file. -/
def endRead : Work Worker Unit := do
  if (← state).keepsFiles then pure () else letGo

end Worker

end Snapshot
