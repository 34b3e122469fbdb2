import Snapshot.Proofs.Session.Books

/-!
# Steady sessions

In a steady session nobody waits for a worker that is free, and whoever waits for a worker is the
call that waits (`Session.Steady`).  What moves workers there can be told by what it does to the
books, the holdings and the call that waits: a call that asks for a worker is refused, or makes one,
or is served, or waits (`Session.Begun`); a worker of a pool that is let go of is free, or goes to
the call that waits (`Session.Dropped`).
-/

namespace Snapshot

/-- The call waits. -/
def Reply.isBlocked : Reply → Bool
  | .blocked => true
  | _ => false

namespace Session

variable {session : Session}

variable (session) in
/-- The reader has one of the pools. -/
def ReaderKnown : Prop := ∀ index, session.reader = some index → index < session.pools.length

theorem SamePools.readerKnown {after : Session} (h : session.SamePools after)
    (hknown : session.ReaderKnown) : after.ReaderKnown := by
  intro index hreader
  rw [h.length_eq]
  exact hknown index (h.reader_eq ▸ hreader)

theorem ReaderKnown.putPool (h : session.ReaderKnown) (index : Nat) (pool : Pool) :
    (session.putPool index pool).ReaderKnown := by
  have hsame : session.SamePools (session.putPool index pool) := ⟨rfl, length_putPool ..⟩
  exact hsame.readerKnown h

variable (session) in
/-- Nobody waits for a worker that is free, and whoever waits is the call that waits. -/
structure Steady : Prop where
  readerKnown : session.ReaderKnown
  consistent : ∀ index, (session.books index).Consistent
  waiting_iff : ∀ index, (session.books index).waiting.isSome ↔
    ∃ pending, session.pending = some pending ∧ pending.pool = index

theorem steady_start : Session.start.Steady where
  readerKnown _ h := nomatch h
  consistent _ := Books.consistent_none ⟨0, 0⟩
  waiting_iff _ := iff_of_false nofun fun h => nomatch h.choose_spec.1

/-! ## Asking for a worker -/

theorem isBlocked_refused (call : Call) (error : ReadError) :
    (call.refused error).isBlocked = false := by
  cases call with
  | hold => rfl
  | readInto path text buffer => rfl
  | readBatch path texts buffers => rfl

theorem isBlocked_perform {directory : Directory} {worker : Worker} {call : Call}
    {read : ReadResult} (hread : perform directory worker call = some read) :
    read.reply.isBlocked = false := by
  cases call with
  | hold => cases hread
  | readInto path text buffer | readBatch path texts buffers =>
      cases hread
      rfl

theorem isBlocked_proceed (name : String) (index : Nat) (slot : Slot) (call : Call) :
    (session.proceed name index slot call).reply.isBlocked = false := by
  rw [reply_proceed]
  cases hread : perform session.directory ((session.pool index).worker slot) call with
  | none => rfl
  | some read => exact isBlocked_perform hread

theorem isBlocked_proceedOwn (name : String) (worker : Worker) (call : Call) :
    (session.proceedOwn name worker call).reply.isBlocked = false := by
  unfold proceedOwn
  cases hread : perform session.directory worker call with
  | none => rfl
  | some read => exact isBlocked_perform hread

theorem pending_eq_none {reply : Reply} (hreply : reply.isBlocked = true)
    (halone : session.pending.isSome → reply.isBlocked = false) : session.pending = none := by
  cases hpending : session.pending with
  | none => rfl
  | some pending =>
      rw [hpending, hreply] at halone
      cases halone rfl

/-- What comes of a call that asks a pool for a worker. -/
inductive Begun (session : Session) (name : String) (selector : Selector) (call : Call)
    (index : Nat) (after : Session) (reply : Reply) : Prop
  | refused {error : ReadError}
    (hasked : ((Pool.ask selector).run (session.pool index)).result = .error error)
    (hbooks : after.books = session.books) (hholdings : after.holdings = session.holdings)
    (hpending : after.pending = session.pending) (hreply : reply.isBlocked = false)
  | own (worker : Worker)
    (hasked : ((Pool.ask selector).run (session.pool index)).result = .ok .own)
    (hbooks : after.books = Function.update session.books index
      { session.books index with ownWorkers := (session.books index).ownWorkers + 1 })
    (hholdings : after.holdings = call.holdingsAfter name (.single worker) session.holdings)
    (hpending : after.pending = session.pending) (hreply : reply.isBlocked = false)
  | served {slot : Slot}
    (hasked : ((Pool.ask selector).run (session.pool index)).result = .ok (.pooled slot))
    (hset : slot.set = (session.books index).slots.number)
    (hfree : slot ∉ (session.books index).held)
    (hbooks : after.books = Function.update session.books index
      { session.books index with
        held := heldAfter call slot (session.books index).held
        acquisitions := (session.books index).acquisitions + 1 })
    (hholdings : after.holdings = call.holdingsAfter name (.pooled index slot) session.holdings)
    (hpending : after.pending = session.pending) (hreply : reply.isBlocked = false)
  | blocked {claimant : Claimant}
    (hasked : ((Pool.ask selector).run (session.pool index)).result = .ok .blocked)
    (hclaims : selector.Claims (session.books index).slots claimant)
    (hheld : ∀ slot, claimant.Admits slot → slot ∈ (session.books index).held)
    (hbooks : after.books = Function.update session.books index
      { session.books index with waiting := some claimant })
    (hholdings : after.holdings = session.holdings)
    (hpending : after.pending = some ⟨name, index, call⟩) (hreply : reply.isBlocked = true)

/-- The books of other pools stay as they are. -/
theorem Begun.books_of_ne {name : String} {selector : Selector} {call : Call} {index : Nat}
    {after : Session} {reply : Reply} (h : Begun session name selector call index after reply)
    {other : Nat} (hother : other ≠ index) : after.books other = session.books other := by
  cases h with
  | refused hasked hbooks hholdings hpending hreply => rw [hbooks]
  | own worker hasked hbooks hholdings hpending hreply
  | served hasked hset hfree hbooks hholdings hpending hreply
  | blocked hasked hclaims hheld hbooks hholdings hpending hreply =>
      rw [hbooks, Function.update_of_ne hother]

/-- **A call that asks for a worker** is refused, or makes one, or is served, or waits.  Nobody else
goes on then: a read gives back only what was free before.  The cursor stays where the asking has
left it. -/
theorem Steady.begin_begun (h : session.Steady) {index : Nat}
    (hreader : session.reader = some index) (name : String) (selector : Selector) (call : Call) :
    Begun session name selector call index (session.begin name selector call index).1
        (session.begin name selector call index).2.reply ∧
      session.SamePools (session.begin name selector call index).1 ∧
      (session.begin name selector call index).2.woken = [] ∧
      (session.begin name selector call index).1.cursor = Function.update session.cursor index
        ((Pool.ask selector).run (session.pool index)).state.cursor := by
  have hindex := h.readerKnown index hreader
  have hasked := Pool.ask_asked (session.pool index) selector
  unfold Work.Leaves at hasked
  unfold Session.begin atPool
  cases hrun : (Pool.ask selector).run (session.pool index) with
  | mk result state log =>
      rw [hrun] at hasked
      dsimp only at hasked ⊢
      cases hasked with
      | refused error =>
          exact ⟨.refused (congrArg Outcome.result hrun) (books_putPool_of_eq rfl) rfl rfl
            (isBlocked_refused call error), ⟨rfl, length_putPool ..⟩, rfl, cursor_putPool hindex _⟩
      | own hown =>
          dsimp only
          rw [proceedOwn_session]
          exact ⟨.own _ (congrArg Outcome.result hrun) (books_putPool hindex _) rfl rfl
            (isBlocked_proceedOwn ..), ⟨rfl, length_putPool ..⟩, rfl, cursor_putPool hindex _⟩
      | @served claimant found hclaims hfound =>
          dsimp only
          obtain ⟨hadmits, hfree⟩ := Pool.find?_eq_some hfound
          have hhanded := books_putPool hindex ((session.pool index).hand claimant found false)
          have hown := congrFun hhanded index
          rw [Function.update_self, Pool.books_hand_at_once] at hown
          obtain ⟨hwoken, hbooks, hholdings, hcursor⟩ := proceed_books
            (by rw [length_putPool]; exact hindex) (congrArg Books.held hown)
            (by rw [hown]; exact (h.consistent index).blocked) name call
          -- A read has given the worker back by now, which nobody can have waited for.
          rw [hwoken, resume_none]
          have hset : claimant.slots.number = (session.pool index).slots.number :=
            congrArg SlotSet.number hclaims.slots_eq
          refine ⟨.served (congrArg Outcome.result hrun) hset hfree ?_ hholdings
            (pending_proceed ..) (isBlocked_proceed ..), ⟨reader_proceed .., ?_⟩, rfl,
            hcursor.trans (cursor_putPool hindex _)⟩
          · rw [hbooks, hown, hhanded, Function.update_idem]
            rfl
          · rw [length_pools_proceed, length_putPool]
      | blocked hclaims hnone =>
          exact ⟨.blocked (congrArg Outcome.result hrun) hclaims (Pool.find?_eq_none_iff.mp hnone)
            (books_putPool hindex _) rfl rfl rfl, ⟨rfl, length_putPool ..⟩, rfl,
            cursor_putPool hindex _⟩

/-! ## Letting go of a worker -/

/-- What comes of letting go of a worker of a pool; `rest` are the other holdings. -/
inductive Dropped (session : Session) (index : Nat) (slot : Slot)
    (rest : List (String × Holding)) (after : Session) : List Woken → Prop
  /-- Nobody is waiting for the worker. -/
  | freed (hunwanted : ∀ claimant, (session.books index).waiting = some claimant →
      ¬claimant.Admits slot)
    (hbooks : after.books = Function.update session.books index
      { session.books index with held := (session.books index).held.erase slot })
    (hholdings : after.holdings = rest) (hpending : after.pending = session.pending) :
    Dropped session index slot rest after []
  /-- The call that waits takes the worker and goes on. -/
  | passed {claimant : Claimant} {pending : Pending} {served : Woken}
    (hwaiting : (session.books index).waiting = some claimant) (hadmits : claimant.Admits slot)
    (hpending : session.pending = some pending) (hpool : pending.pool = index)
    (hbooks : after.books = Function.update session.books index
      { session.books index with
        held := heldAfter pending.call slot ((session.books index).held.erase slot)
        waiting := none
        acquisitions := (session.books index).acquisitions + 1
        waits :=
          if claimant.index.isNone then (session.books index).waits + 1
          else (session.books index).waits })
    (hholdings : after.holdings =
      pending.call.holdingsAfter pending.name (.pooled index slot) rest)
    (hnobody : after.pending = none) (hname : served.name = pending.name)
    (hlog : ∃ log, served.log = .workerAcquired slot.index :: log)
    (hreply : served.reply =
      match perform session.directory ((session.pool index).worker slot) pending.call with
      | none => .held (some slot.index)
      | some read => read.reply) :
    Dropped session index slot rest after [served]

theorem Dropped.books_of_ne {index : Nat} {slot : Slot} {rest : List (String × Holding)}
    {after : Session} {woken : List Woken} (h : Dropped session index slot rest after woken)
    {other : Nat} (hother : other ≠ index) : after.books other = session.books other := by
  cases h with
  | freed hunwanted hbooks hholdings hpending => rw [hbooks, Function.update_of_ne hother]
  | passed hwaiting hadmits hpending hpool hbooks hholdings hnobody hname hlog hreply =>
      rw [hbooks, Function.update_of_ne hother]

/-- The session once a worker is let go of, before anybody else goes on. -/
def released (session : Session) (name : String) (index : Nat) (pool : Pool) : Session :=
  Session.putPool
    { session with holdings := session.holdings.filter fun entry => entry.1 ≠ name } index pool

/-- Letting go of a worker takes its name away, frees it and has the call that waits look again. -/
theorem drop_pooled {index : Nat} {slot : Slot} {woken : Option Slot} {pool : Pool}
    (hwake : ((session.pool index).without slot).wake = (woken, pool)) (name : String) :
    ∃ log, session.drop name (.pooled index slot) =
      (((session.released name index pool).resume woken).1,
        ⟨.done, log, ((session.released name index pool).resume woken).2⟩) := by
  unfold drop giveBack atPool
  dsimp only
  rw [Pool.giveBack_run]
  have hpool : Session.pool { session with
      holdings := session.holdings.filter fun entry => entry.1 ≠ name } index =
      session.pool index := rfl
  rw [hpool, hwake]
  exact ⟨_, rfl⟩

/-- A worker that would do goes to the call that waits. -/
theorem Steady.drop_wanted (h : session.Steady) (name : String) {index : Nat} {slot : Slot}
    {claimant : Claimant} (hwaiting : (session.books index).waiting = some claimant)
    (hadmits : claimant.Admits slot) :
    Dropped session index slot (session.holdings.filter fun entry => entry.1 ≠ name)
        (session.drop name (.pooled index slot)).1
        (session.drop name (.pooled index slot)).2.woken ∧
      session.SamePools (session.drop name (.pooled index slot)).1 ∧
      (session.drop name (.pooled index slot)).1.cursor = Function.update session.cursor index
        ((session.pool index).without slot).wake.2.cursor := by
  have hindex := lt_of_waiting hwaiting
  have hsome : (session.books index).waiting.isSome := by rw [hwaiting]; rfl
  obtain ⟨pending, hpending, rfl⟩ := (h.waiting_iff index).mp hsome
  have hconsistent := h.consistent pending.pool
  have hwake := Pool.wake_without_wanted hconsistent.blocked hconsistent.held_nodup hwaiting hadmits
  obtain ⟨log, hdrop⟩ := drop_pooled hwake name
  rw [hdrop, hwake]
  have hpassed : (session.released name pending.pool _).books = Function.update session.books
      pending.pool ((session.pool pending.pool).passOn claimant slot).books :=
    books_putPool hindex _
  have hpool : (session.released name pending.pool _).pool pending.pool =
      (session.pool pending.pool).passOn claimant slot :=
    pool_putPool_self _ hindex _
  have hlength : (session.released name pending.pool
      ((session.pool pending.pool).passOn claimant slot)).pools.length = session.pools.length :=
    length_putPool ..
  have hown := (congrArg Pool.books hpool).trans (Pool.books_passOn hadmits)
  obtain ⟨progress, hresumed, hbooks, hholdings, hnobody, hreply, hsame, hcursor⟩ :=
    @resume_books (session.released name pending.pool _) pending hpending (hlength ▸ hindex) slot _
      (congrArg Books.held hown) (congrArg Books.waiting hown)
  rw [show Session.books _ pending.pool = _ from hown, hpassed, Function.update_idem] at hbooks
  rw [hpool] at hreply
  rw [hresumed]
  exact ⟨.passed hwaiting hadmits hpending rfl hbooks hholdings hnobody rfl ⟨_, rfl⟩ hreply,
    ⟨hsame.reader_eq, hsame.length_eq.trans hlength⟩, hcursor.trans (cursor_putPool hindex _)⟩

/-- **A worker that is let go of** is free, or goes to the call that waits if it would do. -/
theorem Steady.drop_dropped (h : session.Steady) (name : String) (index : Nat) (slot : Slot) :
    Dropped session index slot (session.holdings.filter fun entry => entry.1 ≠ name)
        (session.drop name (.pooled index slot)).1
        (session.drop name (.pooled index slot)).2.woken ∧
      session.SamePools (session.drop name (.pooled index slot)).1 ∧
      (session.drop name (.pooled index slot)).1.cursor = Function.update session.cursor index
        ((session.pool index).without slot).wake.2.cursor := by
  by_cases hwanted : ∃ claimant, (session.books index).waiting = some claimant ∧
    claimant.Admits slot
  · obtain ⟨claimant, hwaiting, hadmits⟩ := hwanted
    exact h.drop_wanted name hwaiting hadmits
  · have hunwanted : ∀ claimant, (session.books index).waiting = some claimant →
        ¬claimant.Admits slot :=
      fun claimant hwaiting hadmits => hwanted ⟨claimant, hwaiting, hadmits⟩
    have hwake := Pool.wake_without_unwanted (h.consistent index).blocked hunwanted
    obtain ⟨log, hdrop⟩ := drop_pooled hwake name
    have hcursor : (session.released name index ((session.pool index).without slot)).cursor =
        session.cursor :=
      cursor_putPool_of_eq rfl
    rw [hdrop, hwake]
    exact ⟨.freed hunwanted (books_putPool_without index slot) rfl rfl, ⟨rfl, length_putPool ..⟩,
      hcursor.trans (Function.update_eq_self index session.cursor).symm⟩

end Session

end Snapshot
