import Snapshot.Proofs.Session.Stepped
import Snapshot.Proofs.Worker.Turns

/-!
# Pools that keep their slots

A pool gets slots when it is made, when its reader fills it, and loses them when its reader empties
it.  Where no pool is filled that had slots before, there is only one set of slots in the life of a
pool: the present slots are that set or none, and whoever waits has found that set
(`Books.OneSet`).  A run without such a step keeps it so (`Session.Steady.oneSet_along`).
-/

namespace Snapshot

namespace Session

variable {session : Session} {index : Nat}

/-- The pool that gets slots in a step, if it is there already. -/
def fills (session : Session) : Step → Option Nat
  | .refill workers => if workers = 0 then none else session.reader
  | _ => none

/-- A pool that had slots before gets others in the step. -/
def Renews (session : Session) (index : Nat) (step : Step) : Prop :=
  session.fills step = some index ∧ (session.pool index).slots.number ≠ 0

instance (session : Session) (index : Nat) (step : Step) : Decidable (session.Renews index step) :=
  inferInstanceAs (Decidable (_ ∧ _))

/-! ## New pools -/

/-- A new pool has slots with a number, or none.  Nobody waits for them, and the search begins at
the first. -/
structure Untouched (pool : Pool) : Prop where
  ready : pool.slots.size ≠ 0 → pool.slots.number ≠ 0
  waiting_eq : pool.waiting = none
  cursor_eq : pool.cursor = 0

theorem untouched_unready (settings : Settings) : Untouched (.unready settings) :=
  ⟨fun h => absurd rfl h, rfl, rfl⟩

theorem untouched_makePool (source : PoolSource) : Untouched (makePool source).state := by
  cases source with
  | unready settings => exact untouched_unready settings
  | filled settings =>
      have hmade : Work.Leaves (do Work.ofExcept settings.check; Pool.refill settings.workers)
          (Pool.unready settings) fun _ after => Untouched after := by
        rw [Work.leaves_bind_iff, Work.leaves_ofExcept]
        cases settings.check with
        | error error => exact untouched_unready settings
        | ok u =>
            apply ((Pool.unready settings).refill_does settings.workers).mono
            intro _ after hafter
            split_ifs at hafter
            · rw [hafter]
              exact untouched_unready settings
            · rw [hafter]
              exact ⟨fun _ => Nat.succ_ne_zero _, rfl, rfl⟩
      exact hmade

/-- Other pools are as they were, and where there was none nobody had a worker. -/
theorem pool_newReader (source : PoolSource) (index : Nat) :
    ((session.newReader source).1.pool index = session.pool index) ∨
      session.pools.length ≤ index ∧
        (session.newReader source).1.pool index = (makePool source).state := by
  unfold newReader
  dsimp only
  cases (makePool source).result with
  | error error => exact .inl rfl
  | ok u =>
      dsimp only
      rw [pool_append]
      by_cases hindex : index = session.pools.length
      · subst hindex
        rw [Function.update_self]
        exact .inr ⟨Nat.le_refl _, rfl⟩
      · rw [Function.update_of_ne hindex]
        exact .inl rfl

/-! ## Steps that do not move workers -/

theorem workerStep_pool {α : Type} (name : String) (work : Work Worker α) (reply : α → Reply)
    (index : Nat) :
    ∃ workers, (session.workerStep name work reply).1.pool index =
      { session.pool index with workers := workers } := by
  unfold workerStep withHolding
  cases hheld : session.holdings.lookup name with
  | none => exact ⟨_, rfl⟩
  | some holding =>
      cases holding with
      | single worker => exact ⟨_, rfl⟩
      | pooled pool slot =>
          show ∃ workers, (session.putPool pool _).pool index = _
          by_cases hpool : index = pool
          · subst hpool
            by_cases hindex : index < session.pools.length
            · rw [pool_putPool_self _ hindex]
              exact ⟨_, rfl⟩
            · rw [pool_of_length_le _ (by simpa using hindex),
                pool_of_length_le _ (by simpa using hindex)]
              exact ⟨_, rfl⟩
          · rw [pool_putPool_ne _ hpool]
            exact ⟨_, rfl⟩

/-- What becomes of a pool in a step that hands out no worker and takes none back. -/
inductive Idled (session : Session) (index : Nat) (step : Step) : Pool → Prop
  | same (workers : List (Slot × Worker)) :
    Idled session index step { session.pool index with workers := workers }
  | emptied :
    Idled session index step
      { session.pool index with slots := ⟨(session.pool index).slots.number, 0⟩ }
  | filled (workers : Nat) (hfills : session.fills step = some index) :
    Idled session index step
      { session.pool index with
        slots := ⟨(session.pool index).slots.number + 1, workers⟩
        cursor := 0 }
  | made (hindex : session.pools.length ≤ index) (source : PoolSource) :
    Idled session index step (makePool source).state

theorem Idled.refl (session : Session) (index : Nat) (step : Step) :
    Idled session index step (session.pool index) :=
  .same (session.pool index).workers

/-- A step that puts other slots into the pool of the reader. -/
theorem reslot_idled {step : Step} {work : Work Pool Unit}
    (hwork : ∀ pool, session.reader = some pool → pool < session.pools.length →
      work.Leaves (session.pool pool) fun _ after => Idled session pool step after) (index : Nat) :
    Idled session index step
      ((session.withReader fun index =>
        respond (fun _ => Reply.done) (session.atPool index work)).1.pool index) := by
  unfold withReader
  cases hreader : session.reader with
  | none => exact .refl session index step
  | some pool =>
      show Idled session index step ((session.putPool pool _).pool index)
      by_cases hpool : pool < session.pools.length
      · by_cases hindex : index = pool
        · subst hindex
          rw [pool_putPool_self _ hpool]
          exact hwork index hreader hpool
        · rw [pool_putPool_ne _ hindex]
          exact .refl session index step
      · have hsame : session.putPool pool (work.run (session.pool pool)).state = session := by
          unfold putPool
          rw [List.set_eq_of_length_le (Nat.le_of_not_lt hpool)]
        rw [hsame]
        exact .refl session index step

/-- **A step that moves no workers** leaves a pool its slots, takes them away, fills it or makes
it. -/
theorem idled_step {step : Step} (hmoves : step.movesWorkers = false) (index : Nat) :
    Idled session index step ((session.step step).1.pool index) := by
  have hworker : ∀ {α : Type} (name : String) (work : Work Worker α) (reply : α → Reply),
      Idled session index step ((session.workerStep name work reply).1.pool index) := by
    intro α name work reply
    obtain ⟨workers, hpool⟩ := session.workerStep_pool name work reply index
    rw [hpool]
    exact .same workers
  cases step with
  | begin name selector call | release name => cases hmoves
  | write path contents | replace path contents | remove path | newWorker name keepsFiles =>
      exact .refl session index _
  | readHeader path | showPool | showScratch name | showPath name =>
      rw [step_of_tells session rfl]
      exact .refl session index _
  | newReader source =>
      show Idled session index _ ((session.newReader source).1.pool index)
      rcases session.pool_newReader source index with hsame | ⟨hindex, hmade⟩
      · rw [hsame]
        exact .refl session index _
      · rw [hmade]
        exact .made hindex source
  | refill workers =>
      refine reslot_idled (fun pool hreader _ => ?_) index
      apply ((session.pool pool).refill_does workers).mono
      intro _ after hafter
      split_ifs at hafter with hworkers
      · rw [hafter]
        exact .refl session pool _
      · rw [hafter]
        refine .filled workers ?_
        rw [fills, if_neg hworkers, hreader]
  | emptyPool =>
      refine reslot_idled (fun pool _ _ => ?_) index
      apply (session.pool pool).empty_does.mono
      intro _ after hafter
      rw [hafter]
      exact .emptied
  | openPath name path | workerHeader name | readBytes name start length | finish name
  | close name => exact hworker name _ _

/-! ## One set of slots -/

theorem oneSet_start (index : Nat) : (Session.start.books index).OneSet ⟨0, 0⟩ :=
  ⟨.inl rfl, nofun, fun h => absurd rfl h⟩

/-- One pool keeps other books, which follow. -/
theorem follows_of_update {after : Session} {pool : Nat} {books : Books}
    (hbooks : after.books = Function.update session.books pool books)
    (hfollows : (session.books pool).Follows books) (index : Nat) :
    (session.books index).Follows (after.books index) := by
  rw [hbooks]
  by_cases hindex : index = pool
  · subst hindex
    rw [Function.update_self]
    exact hfollows
  · rw [Function.update_of_ne hindex]
    exact .of_eq rfl rfl

theorem Begun.follows {name : String} {selector : Selector} {call : Call} {pool : Nat}
    {after : Session} {reply : Reply} (h : Begun session name selector call pool after reply)
    (index : Nat) : (session.books index).Follows (after.books index) := by
  cases h with
  | refused hasked hbooks hholdings hpending hreply =>
      rw [hbooks]
      exact .of_eq rfl rfl
  | own worker hasked hbooks hholdings hpending hreply
  | served hasked hset hfree hbooks hholdings hpending hreply =>
      exact follows_of_update hbooks (.of_eq rfl rfl) index
  | @blocked claimant hasked hclaims hheld hbooks hholdings hpending hreply =>
      refine follows_of_update hbooks ⟨rfl, fun found hwaits => .inr ?_⟩ index
      cases hwaits
      rw [hclaims.slots_eq]
      exact ⟨rfl, hclaims.size_ne_zero⟩

theorem Dropped.follows {pool : Nat} {slot : Slot} {rest : List (String × Holding)}
    {after : Session} {woken : List Woken} (h : Dropped session pool slot rest after woken)
    (index : Nat) : (session.books index).Follows (after.books index) := by
  cases h with
  | freed hunwanted hbooks hholdings hpending =>
      exact follows_of_update hbooks (.of_eq rfl rfl) index
  | passed hwaiting hadmits hpending hpool hbooks hholdings hnobody hname hlog hreply =>
      exact follows_of_update hbooks ⟨rfl, nofun⟩ index

namespace Steady

variable (h : session.Steady)

include h

/-- A step that moves workers leaves the slots as they are. -/
theorem follows_step {step : Step} (hmoves : step.movesWorkers = true) (index : Nat) :
    (session.books index).Follows ((session.step step).1.books index) := by
  have hmoved := session.moved_step hmoves
  generalize session.step step = result at hmoved ⊢
  cases hmoved with
  | idle step reply => exact .of_eq rfl rfl
  | @asked pool hreader name selector call =>
      exact (h.begin_begun hreader name selector call).1.follows index
  | dismissed name worker => exact .of_eq rfl rfl
  | @dropped name pool slot hheld => exact (h.drop_dropped name pool slot).1.follows index

/-- **One set of slots** is all that a pool has, unless it is filled again.  It has none before it
is filled for the first time. -/
theorem oneSet_step {slots : SlotSet} (hone : (session.books index).OneSet slots) {step : Step}
    (hnew : ¬session.Renews index step) :
    ((session.step step).1.books index).OneSet slots ∨
      slots.size = 0 ∧ ∃ later, ((session.step step).1.books index).OneSet later := by
  have hunwanted : slots.size = 0 → (session.books index).waiting = none := by
    intro hsize
    cases hwaiting : (session.books index).waiting with
    | none => rfl
    | some claimant => exact absurd hsize (hone.wanted claimant hwaiting).2
  cases hmoves : step.movesWorkers with
  | true => exact .inl (hone.follow (h.follows_step hmoves index))
  | false =>
      have hidled := session.idled_step hmoves index
      unfold books at hone hunwanted ⊢
      generalize (session.step step).1.pool index = after at hidled ⊢
      cases hidled with
      | same workers => exact .inl (hone.follow (.of_eq rfl rfl))
      | emptied => exact .inl hone.emptied
      | filled workers hfills =>
          -- The pool had no slots so far, so nobody waits for any.
          have hnumber : (session.pool index).slots.number = 0 := by
            by_contra hnumber
            exact hnew ⟨hfills, hnumber⟩
          have hsize : slots.size = 0 := by
            by_contra hsize
            exact hone.ready hsize (hone.number_eq.symm.trans hnumber)
          refine .inr ⟨hsize, _, .inl rfl, fun claimant hwaits => ?_, fun _ => Nat.succ_ne_zero _⟩
          cases (hunwanted hsize).symm.trans hwaits
      | made hindex source =>
          have hpool := session.pool_of_length_le hindex
          have hsize : slots.size = 0 := by
            by_contra hsize
            refine hone.ready hsize (hone.number_eq.symm.trans ?_)
            rw [hpool]
            rfl
          have huntouched := untouched_makePool source
          refine .inr ⟨hsize, _, .inl rfl, fun claimant hwaits => ?_, huntouched.ready⟩
          cases huntouched.waiting_eq.symm.trans hwaits

/-- **A run in which no pool is filled again** has one set of slots for each pool. -/
theorem oneSet_along {steps : List Step} (hone : ∃ slots, (session.books index).OneSet slots)
    (halone : session.Along WaitsAlone steps)
    (hnew : session.Along (fun session step => ¬session.Renews index step) steps) :
    ∃ slots, ((session.after steps).books index).OneSet slots := by
  induction steps generalizing session with
  | nil => exact hone
  | cons step steps ih =>
      obtain ⟨slots, hslots⟩ := hone
      apply ih (h.step halone.1) ?_ halone.2 hnew.2
      rcases h.oneSet_step hslots hnew.1 with hsame | ⟨-, hlater⟩
      · exact ⟨slots, hsame⟩
      · exact hlater

end Steady

end Session

end Snapshot
