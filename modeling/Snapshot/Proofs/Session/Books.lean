import Mathlib.Logic.Function.Basic
import Snapshot.Proofs.Session.Frame
import Snapshot.Proofs.Worker.Occupancy

/-!
# The books of a session

A session keeps the books of all its pools.  What a call that has its worker does to them is said
here once: a call that keeps its worker changes nothing, and a read gives it back to a pool in which
nobody is better off for it (`Session.proceed_books`).
-/

namespace Snapshot.Session

variable (session : Session)

/-- The books of a pool of the session. -/
def books (index : Nat) : Books := (session.pool index).books

/-- The place where the next search for any worker of a pool begins. -/
def cursor (index : Nat) : Nat := (session.pool index).cursor

/-! ## Replacing a pool -/

variable {session}

theorem books_putPool {index : Nat} (hindex : index < session.pools.length) (pool : Pool) :
    (session.putPool index pool).books = Function.update session.books index pool.books := by
  funext other
  by_cases hother : other = index
  · subst hother
    rw [Function.update_self]
    exact congrArg Pool.books (session.pool_putPool_self hindex pool)
  · rw [Function.update_of_ne hother]
    exact congrArg Pool.books (session.pool_putPool_ne hother pool)

theorem books_putPool_of_eq {index : Nat} {pool : Pool} (hpool : pool.books = session.books index) :
    (session.putPool index pool).books = session.books := by
  by_cases hindex : index < session.pools.length
  · rw [books_putPool hindex, hpool, Function.update_eq_self]
  · have hsame : session.putPool index pool = session := by
      unfold putPool
      rw [List.set_eq_of_length_le (Nat.le_of_not_lt hindex)]
    rw [hsame]

theorem cursor_putPool {index : Nat} (hindex : index < session.pools.length) (pool : Pool) :
    (session.putPool index pool).cursor = Function.update session.cursor index pool.cursor := by
  funext other
  by_cases hother : other = index
  · subst hother
    rw [Function.update_self]
    exact congrArg Pool.cursor (session.pool_putPool_self hindex pool)
  · rw [Function.update_of_ne hother]
    exact congrArg Pool.cursor (session.pool_putPool_ne hother pool)

theorem cursor_putPool_of_eq {index : Nat} {pool : Pool}
    (hcursor : pool.cursor = session.cursor index) :
    (session.putPool index pool).cursor = session.cursor := by
  by_cases hindex : index < session.pools.length
  · rw [cursor_putPool hindex, hcursor, Function.update_eq_self]
  · have hsame : session.putPool index pool = session := by
      unfold putPool
      rw [List.set_eq_of_length_le (Nat.le_of_not_lt hindex)]
    rw [hsame]

/-- Where a session has no pool, nothing is in the books. -/
theorem books_of_length_le {index : Nat} (hindex : session.pools.length ≤ index) :
    session.books index = ⟨⟨0, 0⟩, [], none, 0, 0, 0⟩ := by
  unfold books
  rw [session.pool_of_length_le hindex]
  exact Pool.books_unready _

/-- Where a session has no pool, there is nothing to free. -/
theorem books_putPool_without (index : Nat) (slot : Slot) :
    (session.putPool index ((session.pool index).without slot)).books =
      Function.update session.books index
        { session.books index with held := (session.books index).held.erase slot } := by
  by_cases hindex : index < session.pools.length
  · exact books_putPool hindex _
  · have hsame : { session.books index with held := (session.books index).held.erase slot } =
        session.books index := by
      rw [books_of_length_le (Nat.le_of_not_lt hindex)]
      rfl
    rw [hsame, Function.update_eq_self]
    exact books_putPool_of_eq hsame

theorem lt_of_waiting {index : Nat} {claimant : Claimant}
    (hwaiting : (session.books index).waiting = some claimant) : index < session.pools.length := by
  by_contra hindex
  rw [books_of_length_le (Nat.le_of_not_lt hindex)] at hwaiting
  cases hwaiting

/-- The reader and the number of pools are the same. -/
structure SamePools (before after : Session) : Prop where
  reader_eq : after.reader = before.reader
  length_eq : after.pools.length = before.pools.length

/-! ## A call that has its worker -/

/-- The workers that are held once a call has done what it does with its worker. -/
def heldAfter (call : Call) (slot : Slot) (held : List Slot) : List Slot :=
  if call.keeps then slot :: held else held

/-- A call that was handed a worker keeps it, or gives it back to a pool in which nobody is waiting
for it.  Nothing is searched for in either case. -/
theorem proceed_books {index : Nat} (hindex : index < session.pools.length) {slot : Slot}
    {held : List Slot} (hheld : (session.books index).held = slot :: held)
    (hblocked : Books.Blocked { session.books index with held := held }) (name : String)
    (call : Call) :
    (session.proceed name index slot call).woken = none ∧
      (session.proceed name index slot call).session.books = Function.update session.books index
        { session.books index with held := heldAfter call slot held } ∧
      (session.proceed name index slot call).session.holdings =
        call.holdingsAfter name (.pooled index slot) session.holdings ∧
      (session.proceed name index slot call).session.cursor = session.cursor := by
  cases hkeeps : call.keeps with
  | true =>
      rw [session.proceed_of_keeps hkeeps, heldAfter, Call.holdingsAfter, if_pos hkeeps,
        if_pos hkeeps, ← hheld]
      exact ⟨rfl, (Function.update_eq_self index session.books).symm, rfl, rfl⟩
  | false =>
      obtain ⟨read, -, hsession, hwoken⟩ := session.proceed_of_read hkeeps name index slot
      have hused := session.pool_putPool_self hindex
        ((session.pool index).putWorker slot read.worker)
      have hrelease := @Pool.giveBack_of_blocked
        ((session.pool index).putWorker slot read.worker) slot held hheld hblocked
      rw [hsession, hwoken, heldAfter, Call.holdingsAfter, hkeeps]
      unfold giveBack atPool
      rw [hused, hrelease]
      dsimp only
      refine ⟨rfl, ?_, rfl, ?_⟩
      · rw [books_putPool (by rw [length_putPool]; exact hindex), books_putPool hindex,
          Function.update_idem]
        rfl
      · rw [cursor_putPool (by rw [length_putPool]; exact hindex), cursor_putPool hindex,
          Function.update_idem]
        exact Function.update_eq_self index session.cursor

/-- The call that waits and was handed a worker goes on, and waits no more. -/
theorem resume_books {pending : Pending} (hpending : session.pending = some pending)
    (hindex : pending.pool < session.pools.length) {slot : Slot} {held : List Slot}
    (hheld : (session.books pending.pool).held = slot :: held)
    (hwaiting : (session.books pending.pool).waiting = none) :
    ∃ progress : Progress, session.resume (some slot) = (progress.session,
        [⟨pending.name, progress.reply, .workerAcquired slot.index :: progress.log⟩]) ∧
      progress.session.books = Function.update session.books pending.pool
        { session.books pending.pool with held := heldAfter pending.call slot held } ∧
      progress.session.holdings =
        pending.call.holdingsAfter pending.name (.pooled pending.pool slot) session.holdings ∧
      progress.session.pending = none ∧
      progress.reply =
        (match perform session.directory ((session.pool pending.pool).worker slot) pending.call with
        | none => .held (some slot.index)
        | some read => read.reply) ∧
      session.SamePools progress.session ∧ progress.session.cursor = session.cursor := by
  have hblocked : Books.Blocked { session.books pending.pool with held := held } := by
    intro claimant hwaits
    cases hwaiting.symm.trans hwaits
  obtain ⟨-, hbooks, hholdings, hcursor⟩ := @proceed_books { session with pending := none }
    pending.pool hindex slot held hheld hblocked pending.name pending.call
  exact ⟨_, session.resume_some hpending slot, hbooks, hholdings, pending_proceed ..,
    reply_proceed .., ⟨reader_proceed .., length_pools_proceed ..⟩, hcursor⟩

end Snapshot.Session
