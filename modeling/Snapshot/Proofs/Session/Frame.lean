import Mathlib.Tactic.SplitIfs
import Snapshot.Session.Step

/-!
# What a step leaves alone

A session is changed in few places.  Replacing one pool leaves the others; a call that has its
worker changes one pool and, if it keeps the worker, the holdings; and only two kinds of steps ever
let the call that waits go on.
-/

namespace Snapshot

/-- The call keeps its worker.  A read gives it back at its end. -/
def Call.keeps : Call → Bool
  | .hold => true
  | .readInto .. | .readBatch .. => false

/-- The step may hand out a worker, or take one back. -/
def Step.movesWorkers : Step → Bool
  | .begin .. | .release _ => true
  | _ => false

/-- The holdings once a call has done what it does with its worker. -/
def Call.holdingsAfter (call : Call) (name : String) (holding : Holding)
    (holdings : List (String × Holding)) : List (String × Holding) :=
  if call.keeps then (name, holding) :: holdings else holdings

namespace Session

variable (session : Session)

/-! ## One pool -/

@[simp] theorem length_putPool (index : Nat) (pool : Pool) :
    (session.putPool index pool).pools.length = session.pools.length := List.length_set

theorem pool_putPool_self {index : Nat} (hindex : index < session.pools.length) (pool : Pool) :
    (session.putPool index pool).pool index = pool := by
  show (session.pools.set index pool).getD index _ = pool
  rw [List.getD_eq_getElem?_getD, List.getElem?_set_self hindex, Option.getD_some]

theorem pool_putPool_ne {index other : Nat} (hother : other ≠ index) (pool : Pool) :
    (session.putPool index pool).pool other = session.pool other := by
  show (session.pools.set index pool).getD other _ = session.pools.getD other _
  rw [List.getD_eq_getElem?_getD, List.getElem?_set_ne hother.symm, List.getD_eq_getElem?_getD]

/-- Where a session has no pool, nobody has or wants a worker. -/
theorem pool_of_length_le {index : Nat} (hindex : session.pools.length ≤ index) :
    session.pool index = .unready .standard := by
  unfold pool
  rw [List.getD_eq_getElem?_getD, List.getElem?_eq_none hindex, Option.getD_none]

/-! ## Steps that move workers -/

variable {session} in
theorem step_begin {index : Nat} (hreader : session.reader = some index) (name : String)
    (selector : Selector) (call : Call) :
    session.step (.begin name (.ok selector) call) = session.begin name selector call index := by
  show session.withReader (session.begin name selector call) = _
  unfold withReader
  rw [hreader]

variable {session} in
theorem step_release {name : String} {holding : Holding}
    (hheld : session.holdings.lookup name = some holding) :
    session.step (.release name) = session.drop name holding := by
  show session.withHolding name (session.drop name) = _
  unfold withHolding
  rw [hheld]

/-- What comes of a step that may move workers.  Without a reader, a selector or a holding nothing
does. -/
inductive Moved (session : Session) : Step → Session × Response → Prop
  | idle (step : Step) (reply : Reply) : Moved session step (session.answer reply)
  | asked {index : Nat} (hreader : session.reader = some index) (name : String)
      (selector : Selector) (call : Call) :
    Moved session (.begin name (.ok selector) call) (session.begin name selector call index)
  | dismissed (name : String) (worker : Worker) :
    Moved session (.release name) (session.drop name (.single worker))
  | dropped {name : String} {index : Nat} {slot : Slot}
      (hheld : session.holdings.lookup name = some (.pooled index slot)) :
    Moved session (.release name) (session.drop name (.pooled index slot))

theorem moved_step {step : Step} (hmoves : step.movesWorkers = true) :
    session.Moved step (session.step step) := by
  cases step with
  | begin name selector call =>
      cases selector with
      | error error => exact .idle _ _
      | ok selector =>
          cases hreader : session.reader with
          | none =>
              dsimp only [Session.step, withReader]
              rw [hreader]
              exact .idle _ _
          | some index =>
              rw [step_begin hreader]
              exact .asked hreader name selector call
  | release name =>
      cases hheld : session.holdings.lookup name with
      | none =>
          dsimp only [Session.step, withHolding]
          rw [hheld]
          exact .idle _ _
      | some holding =>
          rw [step_release hheld]
          cases holding with
          | single worker => exact .dismissed name worker
          | pooled index slot => exact .dropped hheld
  | _ => cases hmoves

/-! ## Calls that have a worker -/

theorem perform_isNone (directory : Directory) (worker : Worker) (call : Call) :
    (perform directory worker call).isNone = call.keeps := by
  cases call with
  | hold => rfl
  | readInto path text buffer => rfl
  | readBatch path texts buffers => rfl

theorem proceed_of_keeps {call : Call} (hkeeps : call.keeps = true) (name : String) (index : Nat)
    (slot : Slot) :
    session.proceed name index slot call =
      ⟨{ session with holdings := (name, .pooled index slot) :: session.holdings },
        .held (some slot.index), [], none⟩ := by
  cases call with
  | hold => rfl
  | readInto path text buffer => cases hkeeps
  | readBatch path texts buffers => cases hkeeps

theorem proceedOwn_session (name : String) (worker : Worker) (call : Call) :
    (session.proceedOwn name worker call).session =
      { session with holdings := call.holdingsAfter name (.single worker) session.holdings } := by
  cases call with
  | hold => rfl
  | readInto path text buffer => rfl
  | readBatch path texts buffers => rfl

/-- A read leaves the state of its worker in the pool and gives the worker back. -/
theorem proceed_of_read {call : Call} (hread : call.keeps = false) (name : String) (index : Nat)
    (slot : Slot) :
    ∃ read, perform session.directory ((session.pool index).worker slot) call = some read ∧
      (session.proceed name index slot call).session = ((session.putPool index
        ((session.pool index).putWorker slot read.worker)).giveBack index slot).state ∧
      (session.proceed name index slot call).woken = wokenBy ((session.putPool index
        ((session.pool index).putWorker slot read.worker)).giveBack index slot) := by
  have hperform := perform_isNone session.directory ((session.pool index).worker slot) call
  unfold proceed
  dsimp only
  cases hfound : perform session.directory ((session.pool index).worker slot) call with
  | none =>
      rw [hfound, hread] at hperform
      cases hperform
  | some read => exact ⟨read, rfl, rfl, rfl⟩

/-- The answer of a call depends on the files, on its worker and on nothing else. -/
theorem reply_proceed (name : String) (index : Nat) (slot : Slot) (call : Call) :
    (session.proceed name index slot call).reply =
      match perform session.directory ((session.pool index).worker slot) call with
      | none => .held (some slot.index)
      | some read => read.reply := by
  unfold proceed
  dsimp only
  cases perform session.directory ((session.pool index).worker slot) call with
  | none => rfl
  | some read => rfl

section

variable (name : String) (index : Nat) (slot : Slot) (call : Call)

@[simp] theorem directory_proceed :
    (session.proceed name index slot call).session.directory = session.directory := by
  unfold proceed
  dsimp only
  cases perform session.directory ((session.pool index).worker slot) call with
  | none => rfl
  | some read => rfl

@[simp] theorem pending_proceed :
    (session.proceed name index slot call).session.pending = session.pending := by
  unfold proceed
  dsimp only
  cases perform session.directory ((session.pool index).worker slot) call with
  | none => rfl
  | some read => rfl

@[simp] theorem reader_proceed :
    (session.proceed name index slot call).session.reader = session.reader := by
  unfold proceed
  dsimp only
  cases perform session.directory ((session.pool index).worker slot) call with
  | none => rfl
  | some read => rfl

@[simp] theorem length_pools_proceed :
    (session.proceed name index slot call).session.pools.length = session.pools.length := by
  unfold proceed
  dsimp only
  cases perform session.directory ((session.pool index).worker slot) call with
  | none => rfl
  | some read =>
      show ((session.putPool index _).putPool index _).pools.length = _
      rw [length_putPool, length_putPool]

end

/-! ## The call that waits -/

@[simp] theorem resume_none : session.resume none = (session, []) := rfl

theorem resume_some {pending : Pending} (hpending : session.pending = some pending) (slot : Slot) :
    session.resume (some slot) =
      let progress :=
        { session with pending := none }.proceed pending.name pending.pool slot pending.call
      (progress.session,
        [⟨pending.name, progress.reply, .workerAcquired slot.index :: progress.log⟩]) := by
  unfold resume
  rw [hpending]

/-- Whoever goes on is the call that waits, and does what it was going to do. -/
theorem eq_of_mem_resume {woken : Option Slot} {served : Woken}
    (hserved : served ∈ (session.resume woken).2) :
    ∃ slot pending, session.pending = some pending ∧ served.name = pending.name ∧
      served.reply = ({ session with pending := none }.proceed pending.name pending.pool slot
        pending.call).reply := by
  unfold resume at hserved
  cases woken with
  | none => cases hserved
  | some slot =>
      cases hpending : session.pending with
      | none =>
          rw [hpending] at hserved
          cases hserved
      | some pending =>
          rw [hpending] at hserved
          obtain rfl := List.mem_singleton.mp hserved
          exact ⟨slot, pending, rfl, rfl, rfl⟩

/-- Nobody goes on in a step that neither hands out a worker nor takes one back. -/
theorem woken_eq_nil {step : Step} (hstep : step.movesWorkers = false) :
    (session.step step).2.woken = [] := by
  have hholding : ∀ (name : String) (next : Holding → Session × Response),
      (∀ holding, (next holding).2.woken = []) → (session.withHolding name next).2.woken = [] := by
    intro name next hnext
    unfold withHolding
    cases session.holdings.lookup name with
    | none => rfl
    | some holding => exact hnext holding
  have hreader : ∀ next : Nat → Session × Response,
      (∀ index, (next index).2.woken = []) → (session.withReader next).2.woken = [] := by
    intro next hnext
    unfold withReader
    cases session.reader with
    | none => rfl
    | some index => exact hnext index
  cases step with
  | begin name selector call => cases hstep
  | release name => cases hstep
  | write path contents | replace path contents | remove path | readHeader path
  | newWorker name keepsFiles => rfl
  | newReader source =>
      show (session.newReader source).2.woken = []
      unfold newReader
      dsimp only
      cases (makePool source).result with
      | error error => rfl
      | ok u => rfl
  | refill workers | emptyPool | showPool => exact hreader _ fun _ => rfl
  | openPath name path | workerHeader name | readBytes name start length | showScratch name
  | showPath name | finish name | close name => exact hholding name _ fun _ => rfl

end Session

end Snapshot
