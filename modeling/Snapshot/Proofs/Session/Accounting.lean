import Snapshot.Proofs.Session.Exclusion

/-!
# What a pool has handed out

An account of a pool is kept from what is seen of a run: the answers to the calls that ask for a
worker, the workers that are let go of, and the calls that go on after waiting
(`Session.accountOf`).
The pool's own counters agree with it, whatever becomes of the slots (`Account.Balances`).
-/

namespace Snapshot

/-- What was seen of a pool in a run. -/
structure Account where
  /-- Workers of the pool handed out, at once or after waiting. -/
  handed : Nat
  /-- Workers of the pool given back, at the end of a read or by whoever held them. -/
  returned : Nat
  /-- Workers made outside the pool. -/
  made : Nat
  /-- Calls for any worker that got one after waiting. -/
  waited : Nat
  /-- What the call that waits has asked for. -/
  asked : Option Selector
  deriving DecidableEq

/-- The step changes the slots of a pool. -/
def Step.reslots : Step → Bool
  | .refill _ | .emptyPool => true
  | _ => false

namespace Account

/-- Nothing was seen yet. -/
def blank : Account := ⟨0, 0, 0, 0, none⟩

variable (account : Account)

/-- A call gets a worker.  A read has given it back by the time that it is answered. -/
def hand (call : Call) : Account :=
  { account with
    handed := account.handed + 1
    returned := if call.keeps then account.returned else account.returned + 1 }

/-- A call has asked for a worker. -/
def ask (selector : Selector) (call : Call) : Except ReadError Answer → Account
  | .ok (.pooled _) => account.hand call
  | .ok .own => { account with made := account.made + 1 }
  | .ok .blocked => { account with asked := some selector }
  | .error _ => account

/-- A worker is let go of. -/
def release : Account := { account with returned := account.returned + 1 }

/-- The call that waits gets a worker. -/
def resume (call : Call) : Account :=
  { account.hand call with
    waited := if account.asked = some .auto then account.waited + 1 else account.waited
    asked := none }

/-- If a call goes on and has waited for the pool, it gets a worker. -/
def follow (index : Nat) : Option Pending → List Woken → Account
  | some pending, _ :: _ => if pending.pool = index then account.resume pending.call else account
  | _, _ => account

theorem follow_nil (index : Nat) (pending : Option Pending) :
    account.follow index pending [] = account := by
  cases pending with
  | none => rfl
  | some pending => rfl

/-- The counters of a pool agree with what was seen of it. -/
structure Balances (books : Books) : Prop where
  acquisitions_eq : books.acquisitions = account.handed
  handed_eq : account.handed = books.held.length + account.returned
  ownWorkers_eq : books.ownWorkers = account.made
  waits_eq : books.waits = account.waited
  asked_iff : ∀ claimant, books.waiting = some claimant →
    (claimant.index.isNone = true ↔ account.asked = some .auto)

end Account

namespace Session

variable (session : Session)

/-- The account of a pool after what a step itself has done. -/
def moved (index : Nat) (account : Account) : Step → Account
  | .begin _ (.ok selector) call =>
    if session.reader = some index then
      account.ask selector call ((Pool.ask selector).run (session.pool index)).result
    else account
  | .release name =>
    match session.holdings.lookup name with
    | some (.pooled pool _) => if pool = index then account.release else account
    | _ => account
  | _ => account

/-- The account of a pool after a step, and after the call that goes on in it. -/
def tally (index : Nat) (account : Account) (step : Step) : Account :=
  (session.moved index account step).follow index session.pending (session.step step).2.woken

/-- The account of a pool after a run. -/
def accountOf (index : Nat) : Account → Session → List Step → Account
  | account, _, [] => account
  | account, session, step :: steps =>
    accountOf index (session.tally index account step) (session.step step).1 steps

/-! ## Steps balance -/

variable {session}

theorem length_heldAfter (call : Call) (slot : Slot) (held : List Slot) :
    (heldAfter call slot held).length + (if call.keeps then 0 else 1) = held.length + 1 := by
  unfold heldAfter
  split_ifs
  · rfl
  · rfl

theorem balances_begun {name : String} {selector : Selector} {call : Call} {index : Nat}
    {after : Session} {reply : Reply} {account : Account}
    (hbegun : Begun session name selector call index after reply)
    (h : account.Balances (session.books index)) :
    (account.ask selector call ((Pool.ask selector).run (session.pool index)).result).Balances
      (after.books index) := by
  cases hbegun with
  | refused hasked hbooks hholdings hpending hreply =>
      rw [hasked, hbooks]
      exact h
  | own worker hasked hbooks hholdings hpending hreply =>
      rw [hasked, hbooks, Function.update_self]
      exact ⟨h.acquisitions_eq, h.handed_eq, congrArg (· + 1) h.ownWorkers_eq, h.waits_eq,
        h.asked_iff⟩
  | @served slot hasked hset hfree hbooks hholdings hpending hreply =>
      rw [hasked, hbooks, Function.update_self]
      refine ⟨congrArg (· + 1) h.acquisitions_eq, ?_, h.ownWorkers_eq, h.waits_eq, h.asked_iff⟩
      have hlength := length_heldAfter call slot (session.books index).held
      have hbefore := h.handed_eq
      simp only [Account.ask, Account.hand]
      split_ifs at hlength ⊢ <;> omega
  | blocked hasked hclaims hheld hbooks hholdings hpending hreply =>
      rw [hasked, hbooks, Function.update_self]
      refine ⟨h.acquisitions_eq, h.handed_eq, h.ownWorkers_eq, h.waits_eq, ?_⟩
      intro claimant hclaimant
      cases hclaimant
      rw [hclaims.isNone_iff]
      simp [Account.ask]

/-- A worker that is let go of is given back, and may be handed out again at once. -/
theorem balances_dropped {index : Nat} {slot : Slot} {rest : List (String × Holding)}
    {after : Session} {woken : List Woken} {account : Account}
    (hdropped : Dropped session index slot rest after woken)
    (hslot : slot ∈ (session.books index).held) (h : account.Balances (session.books index)) :
    (account.release.follow index session.pending woken).Balances (after.books index) := by
  have hbefore := h.handed_eq
  have herase := List.length_erase_of_mem hslot
  have hpositive := List.length_pos_of_mem hslot
  cases hdropped with
  | freed hunwanted hbooks hholdings hpending =>
      rw [Account.follow_nil, hbooks, Function.update_self]
      refine ⟨h.acquisitions_eq, ?_, h.ownWorkers_eq, h.waits_eq, h.asked_iff⟩
      simp only [Account.release]
      omega
  | @passed claimant pending served hwaiting hadmits hpending hpool hbooks hholdings hnobody hname
      hlog hreply =>
      rw [hpending, Account.follow, if_pos hpool, hbooks, Function.update_self]
      have hasked := h.asked_iff claimant hwaiting
      refine ⟨congrArg (· + 1) h.acquisitions_eq, ?_, h.ownWorkers_eq, ?_, fun _ h => nomatch h⟩
      · have hlength := length_heldAfter pending.call slot ((session.books index).held.erase slot)
        simp only [Account.resume, Account.hand, Account.release]
        split_ifs at hlength ⊢ <;> omega
      · simp only [Account.resume, Account.release, hasked, h.waits_eq]
        rfl

/-- Nobody goes on who has waited for another pool. -/
theorem Dropped.follow_of_ne {index : Nat} {slot : Slot} {rest : List (String × Holding)}
    {after : Session} {woken : List Woken} (h : Dropped session index slot rest after woken)
    {other : Nat} (hother : other ≠ index) (account : Account) :
    account.follow other session.pending woken = account := by
  cases h with
  | freed hunwanted hbooks hholdings hpending => exact account.follow_nil other _
  | passed hwaiting hadmits hpending hpool hbooks hholdings hnobody hname hlog hreply =>
      rw [hpending, Account.follow, if_neg fun hsame => hother (hsame.symm.trans hpool)]

theorem moved_of_still {step : Step} (hasks : session.asks step = none)
    (hreleases : session.releases step = none) (index : Nat) (account : Account) :
    session.moved index account step = account := by
  cases step with
  | begin name selector call =>
      cases selector with
      | error error => rfl
      | ok selector =>
          have hreader : session.reader = none := by simpa [asks] using hasks
          simp [moved, hreader]
  | release name =>
      cases hheld : session.holdings.lookup name with
      | none => simp [moved, hheld]
      | some holding =>
          cases holding with
          | pooled pool slot => simp [releases, hheld, Holding.slot?] at hreleases
          | single worker => simp [moved, hheld]
  | _ => rfl

/-- **One step** is accounted for, whichever pool it concerns. -/
theorem balances_step (hsteady : session.Steady) (hguarded : session.Guarded) {index : Nat}
    {account : Account} (h : account.Balances (session.books index)) (step : Step) :
    (session.tally index account step).Balances ((session.step step).1.books index) := by
  obtain ⟨hstepped, -⟩ := hsteady.stepped step
  unfold tally
  generalize (session.step step).1 = after at hstepped ⊢
  generalize (session.step step).2 = response at hstepped ⊢
  cases hstepped with
  | @begun name selector call asked after response hreader hbegun hwoken =>
      rw [hwoken, Account.follow_nil, moved, hreader]
      by_cases hindex : index = asked
      · subst hindex
        rw [if_pos rfl]
        exact balances_begun hbegun h
      · rw [if_neg fun hsame => hindex (Option.some.inj hsame).symm, hbegun.books_of_ne hindex]
        exact h
  | @dropped name pool slot after response hheld hdropped =>
      have hmoved : session.moved index account (.release name) =
          if pool = index then account.release else account := by
        rw [moved, hheld]
      rw [hmoved]
      by_cases hindex : index = pool
      · subst hindex
        have hslot : slot ∈ (session.books index).held :=
          (hguarded.held_perm index).mem_iff.mp (mem_guarded hheld)
        rw [if_pos rfl]
        exact balances_dropped hdropped hslot h
      · rw [if_neg (Ne.symm hindex), hdropped.books_of_ne hindex,
          hdropped.follow_of_ne hindex]
        exact h
  | @dismissed name worker response hheld hwoken =>
      rw [hwoken, Account.follow_nil, moved, hheld]
      exact h
  | made hwoken =>
      rw [hwoken, Account.follow_nil]
      exact h
  | other hasks hreleases pool slots hnumber hbooks hhandles hpending hwoken =>
      rw [hwoken, Account.follow_nil, moved_of_still hasks hreleases, hbooks]
      by_cases hindex : index = pool
      · subst hindex
        rw [Function.update_self]
        exact ⟨h.acquisitions_eq, h.handed_eq, h.ownWorkers_eq, h.waits_eq, h.asked_iff⟩
      · rw [Function.update_of_ne hindex]
        exact h

/-! ## Other slots -/

/-- Whoever holds a worker still does, and it is as it was. -/
structure Undisturbed (before after : Session) : Prop where
  holdings_eq : after.holdings = before.holdings
  worker_eq : ∀ index, (after.pool index).worker = (before.pool index).worker
  isFree_eq : ∀ index, (after.pool index).isFree = (before.pool index).isFree

theorem undisturbed_atPool {work : Work Pool Unit}
    (hwork : ∀ pool : Pool, work.Leaves pool fun _ after => pool.Reslots after) :
    session.Undisturbed
      (session.withReader fun index => respond (fun _ => .done) (session.atPool index work)).1 := by
  unfold withReader
  cases session.reader with
  | none => exact ⟨rfl, fun _ => rfl, fun _ => rfl⟩
  | some index =>
      obtain ⟨slots, cursor, -, hslots⟩ := hwork (session.pool index)
      -- What a pool keeps when it gets other slots, every pool of the session keeps.
      have hsame : ∀ {α : Type} (part : Pool → α),
          part (work.run (session.pool index)).state = part (session.pool index) →
          ∀ other, part ((session.atPool index work).state.pool other) =
            part (session.pool other) := by
        intro α part hpart other
        show part ((session.putPool index _).pool other) = _
        by_cases hother : other = index
        · subst hother
          by_cases hlength : other < session.pools.length
          · rw [pool_putPool_self _ hlength, hpart]
          · unfold putPool
            rw [List.set_eq_of_length_le (Nat.le_of_not_lt hlength)]
        · rw [pool_putPool_ne _ hother]
      refine ⟨rfl, hsame Pool.worker ?_, hsame Pool.isFree ?_⟩
      · rw [hslots]
        rfl
      · rw [hslots]
        rfl

theorem undisturbed_of_reslots {step : Step} (hstep : step.reslots = true) :
    session.Undisturbed (session.step step).1 := by
  cases step with
  | refill workers => exact undisturbed_atPool fun pool => pool.refill_reslots workers
  | emptyPool => exact undisturbed_atPool fun pool => pool.empty_reslots
  | _ => cases hstep

/-! ## Reads -/

/-- A read takes a worker that is free and gives it back, or takes none. -/
theorem isFree_read (h : session.Steady) {call : Call} (hread : call.keeps = false) (name : String)
    (selector : Except ReadError Selector) (index : Nat) :
    ((session.step (.begin name selector call)).1.pool index).isFree =
      (session.pool index).isFree := by
  apply Pool.isFree_eq_of_held
  show ((session.step (.begin name selector call)).1.books index).held = (session.books index).held
  obtain ⟨hstepped, -⟩ := h.stepped (.begin name selector call)
  generalize (session.step (.begin name selector call)).1 = after at hstepped ⊢
  have hheld : ∀ slot held, heldAfter call slot held = held := by
    intro slot held
    rw [heldAfter, hread]
    rfl
  cases hstepped with
  | @begun name selector call asked after response hreader hbegun hwoken =>
      by_cases hindex : index = asked
      · subst hindex
        cases hbegun with
        | refused hasked hbooks hholdings hpending hreply => rw [hbooks]
        | own worker hasked hbooks hholdings hpending hreply
        | blocked hasked hclaims hfull hbooks hholdings hpending hreply =>
            rw [hbooks, Function.update_self]
        | served hasked hset hfree hbooks hholdings hpending hreply =>
            rw [hbooks, Function.update_self, hheld]
      · rw [hbegun.books_of_ne hindex]
  | other hasks hreleases pool slots hnumber hbooks hhandles hpending hwoken =>
      rw [hbooks]
      by_cases hindex : index = pool
      · rw [hindex, Function.update_self]
      · rw [Function.update_of_ne hindex]

theorem Dropped.held_of_read {index : Nat} {slot : Slot} {rest : List (String × Holding)}
    {after : Session} {woken : List Woken} (h : Dropped session index slot rest after woken)
    (hread : ∀ pending, session.pending = some pending → pending.call.keeps = false) :
    (after.books index).held = (session.books index).held.erase slot := by
  cases h with
  | freed hunwanted hbooks hholdings hpending => rw [hbooks, Function.update_self]
  | @passed claimant pending served hwaiting hadmits hpending hpool hbooks hholdings hnobody hname
      hlog hreply =>
      rw [hbooks, Function.update_self, heldAfter, hread pending hpending]
      rfl

/-- A worker that is let go of is free, also if a read has waited for it. -/
theorem isFree_release (h : session.Steady) {name : String} {index : Nat} {slot : Slot}
    (hheld : session.holdings.lookup name = some (.pooled index slot))
    (hread : ∀ pending, session.pending = some pending → pending.call.keeps = false) (other : Nat)
    (another : Slot) :
    ((session.step (.release name)).1.pool other).isFree another = true ↔
      (session.pool other).isFree another = true ∨ other = index ∧ another = slot := by
  rw [Pool.isFree_iff, Pool.isFree_iff]
  show another ∉ ((session.step (.release name)).1.books other).held ↔
    another ∉ (session.books other).held ∨ _
  have hnodup := (h.consistent other).held_nodup
  obtain ⟨hdropped, -⟩ := h.drop_dropped name index slot
  rw [step_release hheld]
  by_cases hother : other = index
  · subst hother
    rw [hdropped.held_of_read hread, hnodup.mem_erase_iff]
    tauto
  · rw [hdropped.books_of_ne hother]
    tauto

/-! ## Runs -/

/-- The locks of a pool and its counters are those of the workers that were handed out. -/
structure Exclusive (session : Session) (index : Nat) (account : Account) : Prop where
  guarded_nodup : (session.guarded index).Nodup
  locked_iff : ∀ slot, (session.pool index).isFree slot = false ↔ slot ∈ session.guarded index
  acquisitions_eq : (session.pool index).acquisitions = account.handed
  handed_eq : account.handed = (session.guarded index).length + account.returned
  ownWorkers_eq : (session.pool index).ownWorkers = account.made
  waits_eq : (session.pool index).waits = account.waited

theorem exclusive (hsteady : session.Steady) (hguarded : session.Guarded) {index : Nat}
    {account : Account} (h : account.Balances (session.books index)) :
    session.Exclusive index account where
  guarded_nodup := (hguarded.held_perm index).nodup_iff.mpr (hsteady.consistent index).held_nodup
  locked_iff slot := by
    rw [(hguarded.held_perm index).mem_iff, ← Bool.not_eq_true, Pool.isFree_iff, not_not]
    rfl
  acquisitions_eq := h.acquisitions_eq
  handed_eq := by rw [(hguarded.held_perm index).length_eq, h.handed_eq]
  ownWorkers_eq := h.ownWorkers_eq
  waits_eq := h.waits_eq

/-- An orderly run keeps a session steady and its workers guarded, and every pool has an account. -/
theorem balances_along {steps : List Step} (hsteps : session.Along Orderly steps)
    (hsteady : session.Steady) (hguarded : session.Guarded) {index : Nat} {account : Account}
    (h : account.Balances (session.books index)) :
    (session.after steps).Steady ∧ (session.after steps).Guarded ∧
      (session.accountOf index account steps).Balances ((session.after steps).books index) := by
  induction steps generalizing session account with
  | nil => exact ⟨hsteady, hguarded, h⟩
  | cons step steps ih =>
      obtain ⟨horderly, hrest⟩ := hsteps
      exact ih hrest (hsteady.step horderly.1) (hguarded.step hsteady horderly)
        (balances_step hsteady hguarded h step)

/-- **No worker is held twice, and all that were handed out are accounted for.**  After every run in
which calls wait alone and names are given away once, the workers of a pool that are locked, those
of earlier sets of slots included, are those that somebody holds, each by one; and the counters of
the pool are those of its account.  Whoever holds a worker keeps it and its state when the pool gets
other slots or none.  A read, whether it fails or not, locks and frees nothing: neither one that is
answered at once nor one that goes on when the worker that it has waited for is let go of. -/
theorem exclusive_of_orderly {steps : List Step} (hsteps : Session.start.Along Orderly steps) :
    let session := Session.start.after steps
    (∀ index, session.Exclusive index (Session.start.accountOf index .blank steps)) ∧
    (∀ step : Step, step.reslots = true → session.Undisturbed (session.step step).1) ∧
    (∀ call : Call, call.keeps = false → ∀ name selector index,
      ((session.step (.begin name selector call)).1.pool index).isFree =
        (session.pool index).isFree) ∧
    ∀ name index slot, session.holdings.lookup name = some (.pooled index slot) →
      (∀ pending, session.pending = some pending → pending.call.keeps = false) →
      ∀ other another, ((session.step (.release name)).1.pool other).isFree another = true ↔
        (session.pool other).isFree another = true ∨ other = index ∧ another = slot := by
  intro session
  have hblank : ∀ index, Account.blank.Balances (Session.start.books index) :=
    fun _ => ⟨rfl, rfl, rfl, rfl, fun _ h => nomatch h⟩
  have halong : ∀ index, _ := fun index =>
    balances_along hsteps steady_start guarded_start (hblank index)
  have hsteady : session.Steady := (halong 0).1
  refine ⟨?_, ?_, ?_, ?_⟩
  · exact fun index => exclusive hsteady (halong index).2.1 (halong index).2.2
  · exact fun step hstep => undisturbed_of_reslots hstep
  · exact fun call hread name selector index => isFree_read hsteady hread name selector index
  · exact fun name index slot hheld hread => isFree_release hsteady hheld hread

/-- A pool that is filled again and emptied while workers of both its sets are held, a read that
fails, and a call that gets its worker after waiting. -/
def renewedSteps : List Step :=
  [.newReader (.filled ⟨2, 64, true⟩), .begin "old" (.ok .auto) .hold,
    .begin "own" (.ok .own) .hold, .refill 1,
    .begin "read" (.ok .auto) (.readInto ⟨"missing"⟩ "id" (.flat .u64 [7])),
    .begin "new" (.ok .auto) .hold, .begin "waiting" (.ok .auto) .hold, .emptyPool,
    .release "new"]

theorem exclusive_of_orderly_renewedSteps :
    Session.start.Along Orderly renewedSteps ∧
      Session.start.accountOf 0 .blank renewedSteps = ⟨4, 2, 1, 1, none⟩ ∧
      (Session.start.after renewedSteps).guarded 0 = [⟨2, 0⟩, ⟨1, 0⟩] ∧
      (Session.start.after renewedSteps).Exclusive 0
        (Session.start.accountOf 0 .blank renewedSteps) := by
  have hsteps : Session.start.Along Orderly renewedSteps := by decide +kernel
  exact ⟨hsteps, by decide +kernel, by decide +kernel, (exclusive_of_orderly hsteps).1 0⟩

end Session

end Snapshot
