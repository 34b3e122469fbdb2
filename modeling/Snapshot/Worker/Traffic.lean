import Snapshot.Worker.Pool

/-!
# Callers side by side

Callers of a pool run side by side, and each of them takes several steps.

* Who asks finds the present slots first, and comes to their workers later.
* A caller for any worker takes the lock of the pool and tries one slot after the
  other.  It keeps the lock until it has got a worker or has begun to wait; waiting
  lets go of the lock.  A caller for a certain worker has to do with its slot alone.
* Who lets go of a worker frees it first.  Then the release is counted, for which the
  lock is needed, and after that the call that waits is told of it.
* The call that waits for any worker and was told takes the lock again, and tries once
  more all slots that it found when it began.  By then the worker that it was told of may
  be gone, or others may be free as well.  The telling reaches nobody unless the call
  sleeps; a call that is trying slots has the lock, and will find what was freed
  or be told when it sleeps again.

`Traffic` is a pool with everybody who is on the way, and `Traffic.Step` is one step of
somebody.  At most one call waits: where another one would have to, there is no step.
What holders do with their workers is left out, as are the counts of releases, of which
nothing is read.  Other slots are put in place in one step, with the cursor, which only
says where a search begins.
-/

namespace Snapshot

/-- A caller for any worker that has the lock of the pool. -/
structure Look where
  claimant : Claimant
  /-- The numbers of the slots that it has still to try. -/
  left : List Nat
  /-- It is the call that waits, and looks again. -/
  again : Bool

/-- The slot with a number, of those that are tried. -/
def Look.slot (look : Look) (index : Nat) : Slot := ⟨look.claimant.slots.number, index⟩

/-- A pool and all who are on the way. -/
structure Traffic where
  pool : Pool
  /-- Callers that have found their slots, and nothing more yet. -/
  arrived : List Claimant
  /-- Who has the lock, if anybody. -/
  looking : Option Look
  /-- The call that waits was told of a release, and has not looked since. -/
  told : Bool
  /-- Workers that were let go of, whose release has not been counted. -/
  freed : List Slot
  /-- Workers whose release has been counted, of which nobody was told yet. -/
  counted : List Slot

/-- What somebody does. -/
inductive Move where
  /-- A caller asks for a worker. -/
  | ask (selector : Selector)
  /-- A caller for any worker takes the lock. -/
  | lock (claimant : Claimant)
  /-- The call that waits takes the lock again. -/
  | lockAgain
  /-- Who has the lock tries the next slot. -/
  | probe
  /-- Who has the lock has tried all slots, and waits. -/
  | sleep
  /-- A caller for a certain worker goes to its slot. -/
  | enter (claimant : Claimant)
  /-- The call that waits for a certain worker finds its slot free. -/
  | enterAgain
  /-- The holder of a worker lets go of it. -/
  | free (slot : Slot)
  | count (slot : Slot)
  | tell (slot : Slot)
  | refill (workers : Nat)
  | empty

/-- Somebody goes on with what was begun: the one who lets go of a worker, or the call that waits
when it can. -/
def Move.goesOn : Move → Bool
  | lockAgain | probe | sleep | enterAgain | count _ | tell _ => true
  | _ => false

namespace Traffic

/-- A pool with nobody on the way. -/
def idle (pool : Pool) : Traffic := ⟨pool, [], none, false, [], []⟩

variable (t : Traffic)

/-- What comes of a caller that asks: it is refused, or makes a worker of its own, or is on the
way from now on. -/
def asked (selector : Selector) : Traffic :=
  match t.pool.claim selector with
  | .error _ => t
  | .ok none => { t with pool := t.pool.makeOwn }
  | .ok (some claimant) => { t with arrived := claimant :: t.arrived }

/-- The call that waits does so for any worker, and is not looking. -/
def asleep : Bool :=
  t.pool.waiting.any (fun claimant => claimant.index.isNone) && !t.looking.any Look.again

/-- One step of somebody. -/
inductive Step : Move → Traffic → Prop
  | ask (selector : Selector) : Step (.ask selector) (t.asked selector)
  | lock {claimant : Claimant} (harrived : claimant ∈ t.arrived) (hany : claimant.index = none)
    (hlock : t.looking = none) :
    Step (.lock claimant)
      { t with
        arrived := t.arrived.erase claimant
        looking := some ⟨claimant, t.pool.searchOrder claimant.slots, false⟩ }
  | lockAgain {claimant : Claimant} (hwaiting : t.pool.waiting = some claimant)
    (htold : t.told = true) (hlock : t.looking = none) :
    Step .lockAgain
      { t with
        told := false
        looking := some ⟨claimant, t.pool.searchOrder claimant.slots, true⟩ }
  /-- The slot is locked. -/
  | pass {look : Look} {index : Nat} {left : List Nat} (hlook : t.looking = some look)
    (hleft : look.left = index :: left) (hheld : look.slot index ∈ t.pool.held) :
    Step .probe { t with looking := some { look with left := left } }
  /-- The slot is free, and the caller takes its worker. -/
  | take {look : Look} {index : Nat} {left : List Nat} (hlook : t.looking = some look)
    (hleft : look.left = index :: left) (hfree : look.slot index ∉ t.pool.held)
    (hfirst : look.again = false) :
    Step .probe { t with pool := t.pool.hand look.claimant index false, looking := none }
  | takeAgain {look : Look} {index : Nat} {left : List Nat} (hlook : t.looking = some look)
    (hleft : look.left = index :: left) (hfree : look.slot index ∉ t.pool.held)
    (hagain : look.again = true) :
    Step .probe { t with pool := t.pool.grant look.claimant index, looking := none }
  | sleep {look : Look} (hlook : t.looking = some look) (hleft : look.left = [])
    (hfirst : look.again = false) (halone : t.pool.waiting = none) :
    Step .sleep
      { t with pool := { t.pool with waiting := some look.claimant }, looking := none }
  | sleepAgain {look : Look} (hlook : t.looking = some look) (hleft : look.left = [])
    (hagain : look.again = true) :
    Step .sleep { t with looking := none }
  | enter {claimant : Claimant} {index : Nat} (harrived : claimant ∈ t.arrived)
    (hindex : claimant.index = some index) (hfree : ⟨claimant.slots.number, index⟩ ∉ t.pool.held) :
    Step (.enter claimant)
      { t with pool := t.pool.hand claimant index false, arrived := t.arrived.erase claimant }
  | queue {claimant : Claimant} {index : Nat} (harrived : claimant ∈ t.arrived)
    (hindex : claimant.index = some index) (hheld : ⟨claimant.slots.number, index⟩ ∈ t.pool.held)
    (halone : t.pool.waiting = none) :
    Step (.enter claimant)
      { t with
        pool := { t.pool with waiting := some claimant }
        arrived := t.arrived.erase claimant }
  | enterAgain {claimant : Claimant} {index : Nat} (hwaiting : t.pool.waiting = some claimant)
    (hindex : claimant.index = some index) (hfree : ⟨claimant.slots.number, index⟩ ∉ t.pool.held) :
    Step .enterAgain { t with pool := t.pool.grant claimant index }
  | free {slot : Slot} (hheld : slot ∈ t.pool.held) :
    Step (.free slot) { t with pool := t.pool.without slot, freed := slot :: t.freed }
  | count {slot : Slot} (hfreed : slot ∈ t.freed) (hlock : t.looking = none) :
    Step (.count slot) { t with freed := t.freed.erase slot, counted := slot :: t.counted }
  | tell {slot : Slot} (hcounted : slot ∈ t.counted) :
    Step (.tell slot) { t with counted := t.counted.erase slot, told := t.told || t.asleep }
  | refill (workers : Nat) :
    Step (.refill workers) { t with pool := ((Pool.refill workers).run t.pool).state }
  | empty : Step .empty { t with pool := (Pool.empty.run t.pool).state }

/-- Steps one after the other. -/
inductive Run : Traffic → List Move → Traffic → Prop
  | nil (t : Traffic) : Run t [] t
  | cons {t next after : Traffic} {move : Move} {moves : List Move} (hstep : t.Step move next)
    (hrun : Run next moves after) : Run t (move :: moves) after

/-- Nobody who has come later is trying slots. -/
def Undisturbed : Prop := ∀ look, t.looking = some look → look.again = true

/-- Those who are on the way go on, and nobody else does anything. -/
def GoesOn (moves : List Move) (after : Traffic) : Prop :=
  Run t moves after ∧ ∀ move ∈ moves, move.goesOn = true

end Traffic

end Snapshot
