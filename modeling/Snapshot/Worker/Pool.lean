import Snapshot.Settings.Basic
import Snapshot.Worker.Selector
import Snapshot.Worker.Basic

/-!
# The worker pool

A pool has a set of numbered slots with one worker each.  Filling the pool again
puts a new set in place of the old one; workers of an old set that are still held
stay what they are, so a worker is known by its set and its number in it.  Each
set has a number of its own, and a worker that was never used is a fresh one.

A caller that finds no worker waits, with the set of slots that it found, until a
worker of that set is released.  At most one caller waits at a time.

The operations here are what comes of callers that nobody gets in the way of:
`Pool.ask` looks for a worker and begins to wait if there is none, and
`Pool.giveBack` frees a worker and has the caller that waits look again.
`Traffic` tells of the same callers step by step, with others in between.
-/

namespace Snapshot

/-- A set of slots, by its number and its size. -/
structure SlotSet where
  number : Nat
  size : Nat
  deriving DecidableEq

/-- A worker of a pool: the number of its set, and its own number in it. -/
structure Slot where
  set : Nat
  index : Nat
  deriving DecidableEq

/-- A caller that asks for a worker of a set of slots. -/
structure Claimant where
  slots : SlotSet
  /-- The number of the worker, any of the set if there is none. -/
  index : Option Nat
  deriving DecidableEq

/-- The state of a pool. -/
structure Pool where
  /-- Settings for new workers. -/
  settings : Settings
  /-- The present slots; a pool without slots is not ready. -/
  slots : SlotSet
  /-- Where the search for a free worker begins. -/
  cursor : Nat
  /-- The workers that are held. -/
  held : List Slot
  /-- The workers that have been used, as they are now. -/
  workers : List (Slot × Worker)
  waiting : Option Claimant
  /-- Workers of the pool handed out so far. -/
  acquisitions : Nat
  /-- Callers for any worker that had to wait. -/
  waits : Nat
  /-- Workers outside the pool made so far. -/
  ownWorkers : Nat

/-- What a caller gets who asks for a worker. -/
inductive Answer where
  | pooled (slot : Slot)
  | own
  | blocked
  deriving DecidableEq

namespace Pool

/-- A pool without slots. -/
def unready (settings : Settings) : Pool where
  settings := settings
  slots := ⟨0, 0⟩
  cursor := 0
  held := []
  workers := []
  waiting := none
  acquisitions := 0
  waits := 0
  ownWorkers := 0

variable (pool : Pool)

/-- The pool as a line for debugging. -/
def text : String :=
  s!"WorkerPool \x7b workers: {pool.slots.size}, scratch_capacity: {pool.settings.scratch}, " ++
    s!"reuse_files: {pool.settings.keepsFiles}, .. \x7d"

/-! ## The workers -/

/-- A worker with the pool's settings. -/
def newWorker : Worker := .fresh pool.settings.keepsFiles

/-- A worker of the pool as it is now. -/
def worker (slot : Slot) : Worker :=
  (pool.workers.lookup slot).getD pool.newWorker

/-- The pool with the state of one worker replaced. -/
def putWorker (slot : Slot) (worker : Worker) : Pool :=
  { pool with
    workers := (slot, worker) :: pool.workers.filter fun entry => entry.1 ≠ slot }

/-! ## Finding a worker -/

/-- Nobody holds the worker. -/
def isFree (slot : Slot) : Bool := !pool.held.contains slot

/-- The numbers of a set of slots, in the order of the search. -/
def searchOrder (slots : SlotSet) : List Nat :=
  (List.range slots.size).map fun step => (pool.cursor % slots.size + step) % slots.size

/-- The worker that a claimant gets, if one is free. -/
def find? (claimant : Claimant) : Option Nat :=
  match claimant.index with
  | some index => if pool.isFree ⟨claimant.slots.number, index⟩ then some index else none
  | none =>
    (pool.searchOrder claimant.slots).find? fun index =>
      pool.isFree ⟨claimant.slots.number, index⟩

/-- The pool after a claimant has got a worker.  A claimant for any worker moves
the cursor on and, after waiting, counts as a wait. -/
def hand (claimant : Claimant) (index : Nat) (waited : Bool) : Pool :=
  { pool with
    held := ⟨claimant.slots.number, index⟩ :: pool.held
    cursor := if claimant.index.isNone then index + 1 else pool.cursor
    acquisitions := pool.acquisitions + 1
    waits := if claimant.index.isNone && waited then pool.waits + 1 else pool.waits }

/-- The pool after the claimant that waits has got a worker. -/
def grant (claimant : Claimant) (index : Nat) : Pool :=
  { pool.hand claimant index true with waiting := none }

/-- The pool with one more worker outside of it. -/
def makeOwn : Pool := { pool with ownWorkers := pool.ownWorkers + 1 }

/-- The pool with a worker that is not held any more. -/
def without (slot : Slot) : Pool := { pool with held := pool.held.erase slot }

/-- What a caller claims of the present slots, if not a worker of its own. -/
def claim (selector : Selector) : Except ReadError (Option Claimant) :=
  match selector with
  | .own => .ok none
  | .pinned index =>
    if pool.slots.size = 0 then .error .noPool
    else if pool.slots.size ≤ index then
      .error (.noSuchWorker selector.toNumber pool.slots.size)
    else .ok (some ⟨pool.slots, some index⟩)
  | .auto => if pool.slots.size = 0 then .error .noPool else .ok (some ⟨pool.slots, none⟩)

open Work

/-- Gives a claimant a worker, or lets it wait. -/
def serve (claimant : Claimant) : Work Pool Answer := do
  match (← state).find? claimant with
  | some index => do
    change fun pool => pool.hand claimant index false
    note [.workerAcquired index]
    pure (.pooled ⟨claimant.slots.number, index⟩)
  | none => do
    change fun pool => { pool with waiting := some claimant }
    pure .blocked

/-- Asks for a worker. -/
def ask (selector : Selector) : Work Pool Answer := do
  match ← ofExcept ((← state).claim selector) with
  | none => do
    change makeOwn
    note [.ownWorkerMade]
    pure .own
  | some claimant => serve claimant

/-! ## Giving a worker back -/

/-- The pool after the claimant that waits has looked again, with the worker that it
got if it was served. -/
def wake : Option Slot × Pool :=
  match pool.waiting with
  | none => (none, pool)
  | some claimant =>
    match pool.find? claimant with
    | none => (none, pool)
    | some index => (some ⟨claimant.slots.number, index⟩, pool.grant claimant index)

/-- Lets go of a worker.  It is free for whoever comes first. -/
def release (slot : Slot) : Work Pool Unit := do
  change fun pool => pool.without slot
  note [.workerReleased slot.index]

/-- Has the claimant that waits look again. -/
def rescan : Work Pool (Option Slot) := do
  let (woken, pool) := (← state).wake
  change fun _ => pool
  pure woken

/-- Gives a worker back, and nobody comes before the claimant that waits, which is told of it and
looks again. -/
def giveBack (slot : Slot) : Work Pool (Option Slot) := do
  release slot
  rescan

/-! ## The slots -/

/-- The number of workers of the present set that are held. -/
def busy : Nat :=
  ((List.range pool.slots.size).filter fun index =>
    !pool.isFree ⟨pool.slots.number, index⟩).length

/-- Puts a set of fresh workers in place of the present one. -/
def refill (workers : Nat) : Work Pool Unit := do
  if workers = 0 then fail (.badWorkerCount workers)
  else do
    let busy := (← state).busy
    if 0 < busy then note [.poolRefilled busy (← state).slots.size]
    change fun pool =>
      { pool with
        slots := ⟨pool.slots.number + 1, workers⟩
        cursor := 0 }
    note [.poolFilled workers]

/-- Takes all slots away. -/
def empty : Work Pool Unit := do
  let slots := (← state).slots
  if 0 < slots.size then note [.poolEmptied slots.size]
  change fun pool => { pool with slots := ⟨slots.number, 0⟩ }

/-- A pool with as many workers as its settings say. -/
def ofSettings (settings : Settings) : Outcome Pool Unit :=
  Work.run (do ofExcept settings.check; refill settings.workers) (unready settings)

end Pool

end Snapshot
