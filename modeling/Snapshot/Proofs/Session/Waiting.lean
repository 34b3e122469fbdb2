import Snapshot.Proofs.Session.Stepped
import Snapshot.Proofs.Worker.Wakeup

/-!
# Who waits, and for how long

A call that has to wait waits for the workers of the slots that it found.  All of those that would
do are held as long as it waits, and the first of them that somebody lets go of is the one that it
gets, whatever slots the pool has by then (`Session.Completes`).

In a session the calls come one after another.  `Traffic.Attended` tells of the steps of callers
that come in any order, where a worker may be taken by somebody else before the call that waits has
looked, or two may be let go of.  When nobody gets in the way, the steps of a release come to what
a session does (`Session.waits_until_released`).

Slots that the pool gets later are not among those.  So a call for any worker keeps waiting after
the pool was filled again, although every worker of the new slots is free.
-/

namespace Snapshot

/-- The worker would do, if the slots are those that a call has found. -/
def Selector.Wants (slots : SlotSet) (slot : Slot) : Selector → Prop
  | .auto => slot.set = slots.number ∧ slot.index < slots.size
  | .pinned index => slot.set = slots.number ∧ slot.index = index
  | .own => False

theorem Selector.Claims.admits_iff {slots : SlotSet} {selector : Selector} {claimant : Claimant}
    (h : selector.Claims slots claimant) (slot : Slot) :
    claimant.Admits slot ↔ selector.Wants slots slot := by
  cases h with
  | auto hsize => exact Iff.rfl
  | pinned hindex => exact Iff.rfl

namespace Session

variable {session : Session}

/-- A call waits, and this is what it asks of the pool. -/
def Waiting (session : Session) (pending : Pending) (claimant : Claimant) : Prop :=
  session.pending = some pending ∧ (session.books pending.pool).waiting = some claimant

/-- No worker that would do is let go of in the step. -/
def Unwanted (session : Session) (index : Nat) (selector : Selector) (slots : SlotSet)
    (step : Step) : Prop :=
  ∀ slot, session.releases step = some (index, slot) → ¬selector.Wants slots slot

/-- The call that waited has got the worker that was let go of in the step, and no other. -/
structure Completes (session : Session) (step : Step) (pending : Pending) (selector : Selector)
    (slot : Slot) : Prop where
  served : ∃ served, (session.step step).2.woken = [served] ∧ served.name = pending.name ∧
    (∃ log, served.log = .workerAcquired slot.index :: log) ∧
    served.reply =
      match perform session.directory ((session.pool pending.pool).worker slot) pending.call with
      | none => .held (some slot.index)
      | some read => read.reply
  kept : pending.call.keeps = true →
    (pending.name, .pooled pending.pool slot) ∈ (session.step step).1.holdings
  pending_eq : (session.step step).1.pending = none
  acquisitions_eq : ((session.step step).1.pool pending.pool).acquisitions =
    (session.pool pending.pool).acquisitions + 1
  waits_eq : ((session.step step).1.pool pending.pool).waits =
    (session.pool pending.pool).waits + if selector = .auto then 1 else 0

/-! ## One step -/

namespace Steady

variable (h : session.Steady) {pending : Pending} {slots : SlotSet} {selector : Selector}
  {claimant : Claimant}

include h

/-- Whoever waits for a worker gets it when it is let go of. -/
theorem completes (hwaiting : session.Waiting pending claimant)
    (hclaims : selector.Claims slots claimant) {step : Step} {slot : Slot}
    (hreleases : session.releases step = some (pending.pool, slot))
    (hslot : selector.Wants slots slot) : session.Completes step pending selector slot := by
  obtain ⟨hpending, hwants⟩ := hwaiting
  have hadmits := (hclaims.admits_iff slot).mpr hslot
  obtain ⟨name, rfl, hheld⟩ := eq_release_of_releases hreleases
  obtain ⟨hdropped, -⟩ := h.drop_dropped name pending.pool slot
  rw [← step_release hheld] at hdropped
  generalize hafter : (session.step (.release name)).1 = after at hdropped
  generalize hwoken : (session.step (.release name)).2.woken = woken at hdropped
  cases hdropped with
  | freed hunwanted hbooks hholdings hsame => exact absurd hadmits (hunwanted claimant hwants)
  | @passed found other served hwaiting hfits hsome hpool hbooks hholdings hnobody hname hlog
      hreply =>
      obtain rfl : claimant = found := Option.some.inj (hwants.symm.trans hwaiting)
      obtain rfl : pending = other := Option.some.inj (hpending.symm.trans hsome)
      have hown := (congrFun hbooks pending.pool).trans (Function.update_self ..)
      constructor
      · exact ⟨served, hwoken, hname, hlog, hreply⟩
      · intro hkeeps
        rw [hafter, hholdings, Call.holdingsAfter, if_pos hkeeps]
        exact List.mem_cons_self
      · rw [hafter, hnobody]
      · rw [hafter]
        exact congrArg Books.acquisitions hown
      · rw [hafter]
        refine (congrArg Books.waits hown).trans ?_
        simp only [hclaims.isNone_iff]
        split_ifs
        · rfl
        · rfl

/-- Nothing else lets it go on. -/
theorem waits_on (hwaiting : session.Waiting pending claimant)
    (hclaims : selector.Claims slots claimant) {step : Step} (halone : session.WaitsAlone step)
    (hunwanted : session.Unwanted pending.pool selector slots step) :
    (session.step step).2.woken = [] ∧ (session.step step).1.Waiting pending claimant := by
  obtain ⟨hpending, hwants⟩ := hwaiting
  have hunblocked := halone (by rw [hpending]; rfl)
  obtain ⟨hstepped, -⟩ := h.stepped step
  generalize (session.step step).1 = after at hstepped ⊢
  generalize (session.step step).2 = response at hstepped hunblocked ⊢
  -- The books of other pools do not matter, and in its own the claim stays.
  have hstays : ∀ {index : Nat} {books : Books},
      after.books = Function.update session.books index books →
      books.waiting = (session.books index).waiting → after.pending = session.pending →
      after.Waiting pending claimant := by
    intro index books hbooks hsame hsamePending
    refine ⟨hsamePending.trans hpending, ?_⟩
    rw [hbooks]
    by_cases hindex : pending.pool = index
    · subst hindex
      rw [Function.update_self, hsame, hwants]
    · rw [Function.update_of_ne hindex, hwants]
  cases hstepped with
  | begun hreader hbegun hwoken =>
      refine ⟨hwoken, ?_⟩
      cases hbegun with
      | refused hasked hbooks hholdings hsame hreply =>
          refine ⟨hsame.trans hpending, ?_⟩
          rw [hbooks, hwants]
      | own worker hasked hbooks hholdings hsame hreply => exact hstays hbooks rfl hsame
      | served hasked hset hfree hbooks hholdings hsame hreply => exact hstays hbooks rfl hsame
      | blocked hasked hclaims hheld hbooks hholdings hsame hreply =>
          rw [hreply] at hunblocked
          cases hunblocked
  | @dropped name index slot after response hheld hdropped =>
      generalize response.woken = woken at hdropped ⊢
      cases hdropped with
      | freed hunwanted hbooks hholdings hsame => exact ⟨rfl, hstays hbooks rfl hsame⟩
      | @passed found other served hwaiting hadmits hsome hpool hbooks hholdings hnobody hname hlog
          hreply =>
          obtain rfl : pending = other := Option.some.inj (hpending.symm.trans hsome)
          subst hpool
          obtain rfl : claimant = found := Option.some.inj (hwants.symm.trans hwaiting)
          exact absurd ((hclaims.admits_iff slot).mp hadmits)
            (hunwanted slot (releases_release hheld))
  | dismissed hheld hwoken | made hwoken => exact ⟨hwoken, hpending, hwants⟩
  | other hasks hnothing index slots hnumber hbooks hhandles hsame hwoken =>
      exact ⟨hwoken, hstays hbooks rfl hsame⟩

/-- All workers that would do are held as long as somebody waits for one. -/
theorem isFree_eq_false (hwaiting : session.Waiting pending claimant)
    (hclaims : selector.Claims slots claimant) {slot : Slot} (hslot : selector.Wants slots slot) :
    (session.pool pending.pool).isFree slot = false := by
  rw [← Bool.not_eq_true, Pool.isFree_iff, not_not]
  exact (h.consistent pending.pool).blocked claimant hwaiting.2 slot
    ((hclaims.admits_iff slot).mpr hslot)

/-- A call that has to wait waits for the slots that it found. -/
theorem waiting_of_begin {index : Nat} (hreader : session.reader = some index) {name : String}
    {call : Call}
    (hblocked : (session.step (.begin name (.ok selector) call)).2.reply.isBlocked = true) :
    ∃ claimant, selector.Claims (session.pool index).slots claimant ∧
      (session.step (.begin name (.ok selector) call)).1.Waiting ⟨name, index, call⟩ claimant := by
  obtain ⟨hbegun, -⟩ := h.begin_begun hreader name selector call
  rw [step_begin hreader] at hblocked ⊢
  generalize (session.begin name selector call index).1 = after at hbegun ⊢
  cases hbegun with
  | refused hasked hbooks hholdings hsame hreply | own worker hasked hbooks hholdings hsame hreply
  | served hasked hset hfree hbooks hholdings hsame hreply =>
      rw [hreply] at hblocked
      cases hblocked
  | @blocked claimant hasked hclaims hheld hbooks hholdings hpending hreply =>
      refine ⟨claimant, hclaims, hpending, ?_⟩
      rw [hbooks, Function.update_self]

/-- **Nobody goes on** in a run as long as no worker that would do is let go of, and the call that
waits keeps waiting for the same slots. -/
theorem waits_along (hwaiting : session.Waiting pending claimant)
    (hclaims : selector.Claims slots claimant) {during : List Step}
    (halone : session.Along WaitsAlone during) :
    ((∀ response ∈ session.run during, response.woken = []) ↔
        session.Along (fun session => session.Unwanted pending.pool selector slots) during) ∧
      ((∀ response ∈ session.run during, response.woken = []) →
        (session.after during).Steady ∧ (session.after during).Waiting pending claimant) := by
  -- On the run, for every session: a step that wakes nobody hands `Steady` and `Waiting` on.
  induction during generalizing session with
  | nil => exact ⟨⟨fun _ => trivial, fun _ _ hnone => nomatch hnone⟩, fun _ => ⟨h, hwaiting⟩⟩
  | cons step during ih =>
      obtain ⟨hstep, hrest⟩ := halone
      have hrun : (∀ response ∈ session.run (step :: during), response.woken = []) ↔
          (session.step step).2.woken = [] ∧
            ∀ response ∈ (session.step step).1.run during, response.woken = [] :=
        List.forall_mem_cons
      have hnow : (session.step step).2.woken = [] →
          session.Unwanted pending.pool selector slots step := by
        intro hwoken slot hreleases hslot
        obtain ⟨served, hserved, -⟩ := (h.completes hwaiting hclaims hreleases hslot).served
        cases hwoken.symm.trans hserved
      have hlater := fun hunwanted =>
        ih (h.step hstep) (h.waits_on hwaiting hclaims hstep hunwanted).2 hrest
      rw [hrun]
      refine ⟨⟨?_, ?_⟩, ?_⟩
      · rintro ⟨hwoken, hnobody⟩
        exact ⟨hnow hwoken, (hlater (hnow hwoken)).1.mp hnobody⟩
      · rintro ⟨hunwanted, hothers⟩
        exact ⟨(h.waits_on hwaiting hclaims hstep hunwanted).1,
          (hlater hunwanted).1.mpr hothers⟩
      · rintro ⟨hwoken, hnobody⟩
        exact (hlater (hnow hwoken)).2 hnobody

end Steady

/-! ## Runs -/

/-- A pool of one worker, which is held. -/
def fullSteps : List Step :=
  [.newReader (.filled ⟨1, 64, true⟩), .begin "old" (.ok .auto) .hold]

theorem waitsAlone_refill (session : Session) (workers : Nat) :
    session.WaitsAlone (.refill workers) := by
  intro _
  show (session.withReader fun index =>
    respond (fun _ => .done) (session.atPool index (Pool.refill workers))).2.reply.isBlocked = false
  unfold withReader
  cases session.reader with
  | none => rfl
  | some index =>
      dsimp only [respond]
      cases (session.atPool index (Pool.refill workers)).result with
      | ok u => rfl
      | error error => rfl

/-- A pool that is filled again has as many workers as it was asked for, all of them free. -/
theorem Steady.refill_free (h : session.Steady) {index : Nat}
    (hreader : session.reader = some index) {workers : Nat} (hworkers : workers ≠ 0) :
    (((session.step (.refill workers)).1.pool index).slots.size = workers) ∧
      ∀ slot, Selector.auto.Wants ((session.step (.refill workers)).1.pool index).slots slot →
        ((session.step (.refill workers)).1.pool index).isFree slot = true := by
  have hstep : (session.step (.refill workers)).1 =
      (session.atPool index (Pool.refill workers)).state := by
    show (session.withReader fun index =>
      respond (fun _ => .done) (session.atPool index (Pool.refill workers))).1 = _
    unfold withReader
    rw [hreader]
    rfl
  have hbooks : ((session.step (.refill workers)).1.pool index).books =
      { session.books index with
        slots := ⟨(session.books index).slots.number + 1, workers⟩ } := by
    have hfilled := Pool.refill_does (session.pool index) workers
    rw [if_neg hworkers] at hfilled
    have hpool := session.pool_putPool_self (h.readerKnown index hreader)
      ((Pool.refill workers).run (session.pool index)).state
    rw [hstep]
    exact (congrArg Pool.books hpool).trans (congrArg Pool.books hfilled)
  have hslots := congrArg Books.slots hbooks
  refine ⟨congrArg SlotSet.size hslots, ?_⟩
  intro slot hslot
  rw [Pool.isFree_iff]
  intro hheld
  -- A worker of the new slots has a number that no worker held so far can have.
  have hset : slot.set = (session.books index).slots.number + 1 :=
    hslot.1.trans (congrArg SlotSet.number hslots)
  have hbefore : slot ∈ (session.books index).held := congrArg Books.held hbooks ▸ hheld
  have hle := (h.consistent index).set_le slot hbefore
  omega

/-- **A call for any worker waits for the slots that it found.**  All workers of those are held as
long as it waits, so all workers of the pool are as long as it has those slots.  When it is filled
again, all its workers are free, and the call goes on waiting. -/
theorem auto_waits_for_found_slots {before during : List Step} {name : String} {call : Call}
    {index : Nat} (hreader : (Session.start.after before).reader = some index)
    (hblocked : ((Session.start.after before).step
      (.begin name (.ok .auto) call)).2.reply.isBlocked = true)
    (halone : Session.start.Along WaitsAlone (before ++ .begin name (.ok .auto) call :: during))
    (hnobody : ∀ response ∈ ((Session.start.after before).step
      (.begin name (.ok .auto) call)).1.run during, response.woken = []) :
    let found := ((Session.start.after before).pool index).slots
    let session := ((Session.start.after before).step (.begin name (.ok .auto) call)).1.after during
    let slots := (session.pool index).slots
    (∀ slot, Selector.auto.Wants found slot → (session.pool index).isFree slot = false) ∧
    (slots = found → ∀ slot, Selector.auto.Wants slots slot →
      (session.pool index).isFree slot = false) ∧
    ∀ workers, workers ≠ 0 → session.reader = some index →
      let (refilled, response) := session.step (.refill workers)
      response.woken = [] ∧ refilled.pending = some ⟨name, index, call⟩ ∧
        (refilled.pool index).slots.size = workers ∧
        ∀ slot, Selector.auto.Wants (refilled.pool index).slots slot →
          (refilled.pool index).isFree slot = true := by
  intro found session slots
  obtain ⟨hbefore, hbegin, hduring⟩ := along_append.mp halone
  have hsteady := steady_start.along hbefore
  obtain ⟨claimant, hclaims, hfound⟩ := hsteady.waiting_of_begin hreader hblocked
  obtain ⟨hlater, hwaiting⟩ :=
    ((hsteady.step hbegin).waits_along hfound hclaims hduring).2 hnobody
  have hheld : ∀ slot, Selector.auto.Wants found slot → (session.pool index).isFree slot = false :=
    fun slot hslot => hlater.isFree_eq_false hwaiting hclaims hslot
  refine ⟨hheld, ?_, ?_⟩
  · intro hsame
    rw [hsame]
    exact hheld
  · intro workers hworkers hnow
    obtain ⟨hwoken, hstays⟩ := hlater.waits_on hwaiting hclaims (waitsAlone_refill session workers)
      fun slot hreleases => nomatch hreleases
    exact ⟨hwoken, hstays.1, hlater.refill_free hnow hworkers⟩

theorem auto_waits_for_found_slots_fullSteps :
    let waiting := ((Session.start.after fullSteps).step (.begin "waiting" (.ok .auto) .hold)).1
    let refilled := (waiting.step (.refill 2)).1
    refilled.pending = some ⟨"waiting", 0, .hold⟩ ∧ (refilled.pool 0).slots = ⟨2, 2⟩ ∧
      (refilled.pool 0).isFree ⟨1, 0⟩ = false ∧ (refilled.pool 0).isFree ⟨2, 0⟩ = true ∧
      (refilled.pool 0).isFree ⟨2, 1⟩ = true := by
  intro waiting refilled
  have hfound : ((Session.start.after fullSteps).pool 0).slots = ⟨1, 1⟩ := by decide +kernel
  have hslots : (refilled.pool 0).slots = ⟨2, 2⟩ := by decide +kernel
  -- The call waits up to the refill, and it waits on after it.
  obtain ⟨-, -, hrefill⟩ := @auto_waits_for_found_slots fullSteps [] "waiting" .hold 0
    (by decide +kernel) (by decide +kernel) (by decide +kernel) (fun _ h => nomatch h)
  obtain ⟨hheld, -, -⟩ := @auto_waits_for_found_slots fullSteps [.refill 2] "waiting" .hold 0
    (by decide +kernel) (by decide +kernel) (by decide +kernel) (by decide +kernel)
  have hrefilled : refilled.pending = some ⟨"waiting", 0, .hold⟩ ∧ _ ∧
      ∀ slot, Selector.auto.Wants (refilled.pool 0).slots slot →
        (refilled.pool 0).isFree slot = true :=
    (hrefill 2 nofun (by decide +kernel)).2
  obtain ⟨hpending, -, hfree⟩ := hrefilled
  rw [hslots] at hfree
  rw [hfound] at hheld
  exact ⟨hpending, hslots, hheld ⟨1, 0⟩ ⟨rfl, Nat.one_pos⟩, hfree ⟨2, 0⟩ ⟨rfl, Nat.two_pos⟩,
    hfree ⟨2, 1⟩ ⟨rfl, Nat.one_lt_two⟩⟩

/-- A call for any worker is left to wait beside free workers of the present slots. -/
theorem not_all_held_while_auto_waits :
    ¬∀ (before during : List Step) (name : String) (call : Call) (index : Nat),
      (Session.start.after before).reader = some index →
      ((Session.start.after before).step
        (.begin name (.ok .auto) call)).2.reply.isBlocked = true →
      Session.start.Along WaitsAlone (before ++ .begin name (.ok .auto) call :: during) →
      (∀ response ∈ ((Session.start.after before).step
        (.begin name (.ok .auto) call)).1.run during, response.woken = []) →
      let session :=
        ((Session.start.after before).step (.begin name (.ok .auto) call)).1.after during
      ∀ slot, Selector.auto.Wants (session.pool index).slots slot →
        (session.pool index).isFree slot = false := by
  intro hclaim
  have hfree := hclaim fullSteps [.refill 2] "waiting" .hold 0 (by decide +kernel)
    (by decide +kernel) (by decide +kernel) (by decide +kernel) ⟨2, 0⟩
  have hslots : ((((Session.start.after fullSteps).step
      (.begin "waiting" (.ok .auto) .hold)).1.after [.refill 2]).pool 0).slots = ⟨2, 2⟩ := by
    decide +kernel
  have hidle : ((((Session.start.after fullSteps).step
      (.begin "waiting" (.ok .auto) .hold)).1.after [.refill 2]).pool 0).isFree ⟨2, 0⟩ = true := by
    decide +kernel
  rw [hslots, hidle] at hfree
  cases hfree ⟨rfl, Nat.two_pos⟩

end Session

end Snapshot
