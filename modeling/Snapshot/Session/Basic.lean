import Snapshot.Worker.Pool
import Snapshot.Read.Variable

/-!
# Sessions

A session is a directory of files, a reader with its pool, and the workers that
are held under a name.  A reader may be replaced while workers of its pool are
still held, so the session keeps every pool it ever had.

At most one call waits for a worker.  It is kept with what it was going to do,
and goes on in the step that releases a worker to it.
-/

namespace Snapshot

/-- A worker held under a name. -/
inductive Holding where
  /-- A worker of one of the session's pools. -/
  | pooled (pool : Nat) (slot : Slot)
  /-- A worker outside every pool, with its state. -/
  | single (worker : Worker)

/-- What is done with a worker once there is one. -/
inductive Call where
  /-- It is held under the name of the call. -/
  | hold
  | readInto (path : Path) (text : String) (buffer : Buffer)
  | readBatch (path : Path) (texts : List String) (buffers : List Buffer)

/-- A call that waits for a worker of a pool. -/
structure Pending where
  name : String
  pool : Nat
  call : Call

/-- The state of a session. -/
structure Session where
  directory : Directory
  pools : List Pool
  /-- The pool of the present reader. -/
  reader : Option Nat
  holdings : List (String × Holding)
  pending : Option Pending

/-- A session in an empty directory, without a reader. -/
def Session.start : Session := ⟨.empty, [], none, [], none⟩

/-- Where the pool of a new reader comes from. -/
inductive PoolSource where
  /-- A pool with workers. -/
  | filled (settings : Settings)
  /-- A pool without workers. -/
  | unready (settings : Settings)

/-- One step of a session.  A selector may be a number that stands for none. -/
inductive Step where
  | write (path : Path) (contents : Bytes)
  | replace (path : Path) (contents : Bytes)
  | remove (path : Path)
  | newReader (source : PoolSource)
  | refill (workers : Nat)
  | emptyPool
  | showPool
  | readHeader (path : Path)
  | begin (name : String) (selector : Except ReadError Selector) (call : Call)
  | newWorker (name : String) (keepsFiles : Bool)
  | release (name : String)
  | openPath (name : String) (path : Path)
  | workerHeader (name : String)
  | readBytes (name : String) (start length : Nat)
  | showScratch (name : String)
  | showPath (name : String)
  | finish (name : String)
  | close (name : String)

/-- What a step answers. -/
inductive Reply where
  | done
  | failed (error : ReadError)
  | madeReader (pool : Pool)
  | pool (pool : Pool)
  | header (header : Header)
  | readInto (result : Except ReadError Unit) (buffer : Buffer)
  | readBatch (result : Except ReadError Unit) (buffers : List Buffer)
  /-- The number of the worker in its pool, if it has one. -/
  | held (slot : Option Nat)
  | madeWorker
  | bytes (bytes : Bytes)
  | scratch (bytes : Bytes)
  | path (path : Option Path)
  /-- The call waits. -/
  | blocked
  /-- The step needs a reader, and there is none. -/
  | noReader
  /-- The step names a worker that is not held. -/
  | noSuchName

/-- A call that waited and has gone on. -/
structure Woken where
  name : String
  reply : Reply
  log : List Event

/-- All that a step gives back. -/
structure Response where
  reply : Reply
  log : List Event
  woken : List Woken

/-- The answer to a call that got no worker. -/
def Call.refused (call : Call) (error : ReadError) : Reply :=
  match call with
  | .hold => .failed error
  | .readInto _ _ buffer => .readInto (.error error) buffer
  | .readBatch _ _ buffers => .readBatch (.error error) buffers

/-- A held worker as a line for debugging. -/
def handleText (slot : Option Nat) : String :=
  let number := match slot with
    | some index => s!"Some({index})"
    | none => "None"
  s!"WorkerHandle \x7b slot: {number}, .. \x7d"

end Snapshot
