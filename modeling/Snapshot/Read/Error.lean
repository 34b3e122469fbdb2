import Snapshot.Fault

/-!
# Why a read fails

A read fails because of the request, because of the pool that was to serve it,
because of the file, or because storage does not give the file's bytes.
`ReadError.isUsage` tells the first two, which a caller can mend, from the
others.
-/

namespace Snapshot

/-- The layout of an output buffer. -/
inductive Shape where
  /-- One value per particle. -/
  | flat
  /-- Three values per particle. -/
  | triples
  /-- One record per particle. -/
  | records
  deriving DecidableEq

/-- The shape as a type of list. -/
def Shape.text : Shape → String
  | flat => "[T]"
  | triples => "[[T; 3]]"
  | records => "[RockstarParticle]"

/-- Why a read fails. -/
inductive ReadError where
  | fault (fault : Fault)
  | storage (fault : StorageFault)
  /-- The pool has no workers. -/
  | noPool
  /-- A pool of `workers` workers has none with this number. -/
  | noSuchWorker (selector : Int) (workers : Nat)
  /-- A pool was asked for this number of workers, which is too small. -/
  | badWorkerCount (count : Nat)
  /-- The buffer has another length than the file has particles. -/
  | bufferLength (expression : String) (particles length : Nat)
  /-- The buffer has another shape than the expression. -/
  | bufferShape (expression : String) (expected actual : Shape)
  /-- The settings have no workers. -/
  | noWorkers
  deriving DecidableEq

namespace ReadError

/-- The error in words. -/
def message : ReadError → String
  | fault cause => cause.message
  | storage cause => cause.message
  | noPool => "worker pool is not initialized"
  | noSuchWorker selector workers =>
    s!"invalid worker selector {selector} (pool has {workers} workers)"
  | badWorkerCount count => s!"invalid worker count {count}: at least one worker is required"
  | bufferLength expression particles length =>
    s!"buffer for '{expression}' holds {length} particles, file has {particles}"
  | bufferShape expression expected actual =>
    s!"buffer for '{expression}' must be {expected.text}, got {actual.text}"
  | noWorkers => "Configuration error: workers must be greater than 0"

/-- The request is at fault, not the file or the storage. -/
def isUsage : ReadError → Bool
  | fault cause => cause.isResolution
  | storage _ => false
  | _ => true

end ReadError

end Snapshot
