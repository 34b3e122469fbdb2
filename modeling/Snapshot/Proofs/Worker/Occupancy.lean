import Mathlib.Data.List.Nodup
import Mathlib.Tactic.SplitIfs
import Snapshot.Proofs.Read.Work
import Snapshot.Worker.Pool

/-!
# Who has which worker

A pool keeps books: which workers are held, who waits, and how many workers were handed out.  The
states of the workers and the place where the search begins are not in them.  What each operation
does to the books is said here once (`Pool.ask_asked`, `Pool.giveBack_run`, `Pool.refill_does`,
`Pool.empty_does`), and everything about the occupancy of a pool is derived from that.

A search visits every worker of the set, wherever it begins.  So it fails exactly if all the workers
that would do are held (`Pool.find?_eq_none_iff`), and if only one of them is free, it finds that
one (`Pool.find?_eq_some_of_only`).
-/

namespace Snapshot

/-! ## Claims -/

/-- The worker would do for the claimant. -/
def Claimant.Admits (claimant : Claimant) (slot : Slot) : Prop :=
  slot.set = claimant.slots.number ∧
    match claimant.index with
    | some index => slot.index = index
    | none => slot.index < claimant.slots.size

theorem Claimant.Admits.slot_eq {claimant : Claimant} {slot : Slot} (h : claimant.Admits slot) :
    (⟨claimant.slots.number, slot.index⟩ : Slot) = slot := by
  rw [← h.1]

/-- What a selector asks of a set of slots that it can be met by. -/
inductive Selector.Claims (slots : SlotSet) : Selector → Claimant → Prop
  | auto (hsize : slots.size ≠ 0) : Claims slots .auto ⟨slots, none⟩
  | pinned {index : Nat} (hindex : index < slots.size) :
    Claims slots (.pinned index) ⟨slots, some index⟩

theorem Selector.Claims.slots_eq {slots : SlotSet} {selector : Selector} {claimant : Claimant}
    (h : selector.Claims slots claimant) : claimant.slots = slots := by
  cases h with
  | auto hsize => rfl
  | pinned hindex => rfl

/-- A claimant for any worker is one that asked for any. -/
theorem Selector.Claims.isNone_iff {slots : SlotSet} {selector : Selector} {claimant : Claimant}
    (h : selector.Claims slots claimant) : claimant.index.isNone = true ↔ selector = .auto := by
  cases h with
  | auto hsize => exact iff_of_true rfl rfl
  | pinned hindex => exact iff_of_false nofun nofun

/-! ## Books -/

/-- What a pool keeps account of. -/
structure Books where
  slots : SlotSet
  held : List Slot
  waiting : Option Claimant
  acquisitions : Nat
  waits : Nat
  ownWorkers : Nat

/-- Whoever waits has nothing to take. -/
def Books.Blocked (books : Books) : Prop :=
  ∀ claimant, books.waiting = some claimant → ∀ slot, claimant.Admits slot → slot ∈ books.held

/-- No worker is held twice, or before its set of slots was there, and whoever waits has nothing to
take. -/
structure Books.Consistent (books : Books) : Prop where
  held_nodup : books.held.Nodup
  set_le : ∀ slot ∈ books.held, slot.set ≤ books.slots.number
  blocked : books.Blocked

theorem Books.consistent_none (slots : SlotSet) : Books.Consistent ⟨slots, [], none, 0, 0, 0⟩ where
  held_nodup := List.nodup_nil
  set_le _ h := absurd h List.not_mem_nil
  blocked _ h := nomatch h

theorem Books.Blocked.erase {books : Books} (h : books.Blocked) {slot : Slot}
    (hunwanted : ∀ claimant, books.waiting = some claimant → ¬claimant.Admits slot) :
    Books.Blocked { books with held := books.held.erase slot } := by
  intro claimant hwaiting other hadmits
  have hother : other ≠ slot := fun hsame => hunwanted claimant hwaiting (hsame ▸ hadmits)
  exact (List.mem_erase_of_ne hother).mpr (h claimant hwaiting other hadmits)

namespace Pool

variable (pool : Pool)

/-- The books of a pool. -/
def books : Books :=
  ⟨pool.slots, pool.held, pool.waiting, pool.acquisitions, pool.waits, pool.ownWorkers⟩

@[simp] theorem books_unready (settings : Settings) :
    (unready settings).books = ⟨⟨0, 0⟩, [], none, 0, 0, 0⟩ := rfl

theorem books_hand_at_once (claimant : Claimant) (index : Nat) :
    (pool.hand claimant index false).books =
      { pool.books with
        held := ⟨claimant.slots.number, index⟩ :: pool.held
        acquisitions := pool.acquisitions + 1 } := by
  unfold hand
  rw [Bool.and_false]
  rfl

/-- Only a claimant for any worker counts as one that waited. -/
theorem books_hand_waited (claimant : Claimant) (index : Nat) :
    (pool.hand claimant index true).books =
      { pool.books with
        held := ⟨claimant.slots.number, index⟩ :: pool.held
        acquisitions := pool.acquisitions + 1
        waits := if claimant.index.isNone then pool.waits + 1 else pool.waits } := by
  unfold hand
  rw [Bool.and_true]
  rfl

/-! ## Searching -/

variable {pool}

theorem isFree_iff {slot : Slot} : pool.isFree slot = true ↔ slot ∉ pool.held := by
  unfold isFree
  simp

theorem isFree_eq_of_held {other : Pool} (hheld : other.held = pool.held) :
    other.isFree = pool.isFree := by
  unfold isFree
  rw [hheld]

/-- The search visits every worker of the set, wherever it begins. -/
theorem mem_searchOrder {slots : SlotSet} {index : Nat} :
    index ∈ pool.searchOrder slots ↔ index < slots.size := by
  unfold searchOrder
  rw [List.mem_map]
  constructor
  · intro h
    obtain ⟨step, hstep, rfl⟩ := h
    rw [List.mem_range] at hstep
    exact Nat.mod_lt _ (Nat.zero_lt_of_lt hstep)
  · intro h
    have hpositive := Nat.zero_lt_of_lt h
    have hbegin := Nat.mod_lt pool.cursor hpositive
    -- From the beginning on, so many steps lead to the index, perhaps past the end of the set.
    refine ⟨(index + (slots.size - pool.cursor % slots.size)) % slots.size,
      List.mem_range.mpr (Nat.mod_lt _ hpositive), ?_⟩
    have hround : pool.cursor % slots.size + (index + (slots.size - pool.cursor % slots.size)) =
        index + slots.size := by omega
    rw [Nat.add_mod_mod, hround, Nat.add_mod_right, Nat.mod_eq_of_lt h]

theorem find?_eq_some {claimant : Claimant} {index : Nat}
    (hfound : pool.find? claimant = some index) :
    claimant.Admits ⟨claimant.slots.number, index⟩ ∧
      ⟨claimant.slots.number, index⟩ ∉ pool.held := by
  unfold find? at hfound
  unfold Claimant.Admits
  cases hindex : claimant.index with
  | some wanted =>
      rw [hindex] at hfound
      dsimp only at hfound
      split_ifs at hfound with hfree
      cases hfound
      exact ⟨⟨rfl, rfl⟩, isFree_iff.mp hfree⟩
  | none =>
      have hsearch : (pool.searchOrder claimant.slots).find? (fun index =>
          pool.isFree ⟨claimant.slots.number, index⟩) = some index := by
        rw [hindex] at hfound
        exact hfound
      have hfree := List.find?_some hsearch
      exact ⟨⟨rfl, mem_searchOrder.mp (List.mem_of_find?_eq_some hsearch)⟩, isFree_iff.mp hfree⟩

/-- **A claimant waits** only if all workers that would do are held. -/
theorem find?_eq_none_iff {claimant : Claimant} :
    pool.find? claimant = none ↔ ∀ slot, claimant.Admits slot → slot ∈ pool.held := by
  constructor
  · intro hnone slot hadmits
    obtain ⟨set, index⟩ := slot
    obtain ⟨rfl, hindex⟩ := hadmits
    by_contra hfree
    unfold find? at hnone
    cases hwanted : claimant.index with
    | some wanted =>
        rw [hwanted] at hnone hindex
        obtain rfl : index = wanted := hindex
        dsimp only at hnone
        rw [if_pos (isFree_iff.mpr hfree)] at hnone
        cases hnone
    | none =>
        rw [hwanted] at hnone hindex
        have hheld := List.find?_eq_none.mp hnone index (mem_searchOrder.mpr hindex)
        exact hheld (isFree_iff.mpr hfree)
  · intro hheld
    cases hfound : pool.find? claimant with
    | none => rfl
    | some index =>
        obtain ⟨hadmits, hfree⟩ := find?_eq_some hfound
        exact absurd (hheld _ hadmits) hfree

/-- Where only one worker that would do is free, the search finds it. -/
theorem find?_eq_some_of_only {claimant : Claimant} {slot : Slot} (hadmits : claimant.Admits slot)
    (hfree : slot ∉ pool.held)
    (honly : ∀ other, claimant.Admits other → other ≠ slot → other ∈ pool.held) :
    pool.find? claimant = some slot.index := by
  cases hfound : pool.find? claimant with
  | none => exact absurd (find?_eq_none_iff.mp hfound slot hadmits) hfree
  | some index =>
      obtain ⟨hfits, hunheld⟩ := find?_eq_some hfound
      have hsame : (⟨claimant.slots.number, index⟩ : Slot) = slot := by
        by_contra hother
        exact hunheld (honly _ hfits hother)
      rw [← hsame]

/-! ## Asking -/

variable (pool)

/-- What comes of asking a pool for a worker, and the pool after it. -/
inductive Asked (selector : Selector) : Except ReadError Answer → Pool → Prop
  | refused (error : ReadError) (hclaim : pool.claim selector = .error error) :
    Asked selector (.error error) pool
  | own (hown : selector = .own) :
    Asked selector (.ok .own) { pool with ownWorkers := pool.ownWorkers + 1 }
  | served {claimant : Claimant} {index : Nat} (hclaims : selector.Claims pool.slots claimant)
    (hfound : pool.find? claimant = some index) :
    Asked selector (.ok (.pooled ⟨claimant.slots.number, index⟩)) (pool.hand claimant index false)
  | blocked {claimant : Claimant} (hclaims : selector.Claims pool.slots claimant)
    (hnone : pool.find? claimant = none) :
    Asked selector (.ok .blocked) { pool with waiting := some claimant }

variable {pool} in
/-- What is claimed are workers of the present slots. -/
theorem claims_of_claim {selector : Selector} {claimant : Claimant}
    (h : pool.claim selector = .ok (some claimant)) : selector.Claims pool.slots claimant := by
  unfold claim at h
  cases selector with
  | own => cases h
  | auto =>
      dsimp only at h
      split_ifs at h with hsize
      cases h
      exact .auto hsize
  | pinned index =>
      dsimp only at h
      split_ifs at h with hsize hindex
      cases h
      exact .pinned (Nat.lt_of_not_le hindex)

variable {pool} in
/-- Who claims nothing of a pool asked for a worker of its own. -/
theorem eq_own_of_claim {selector : Selector} (h : pool.claim selector = .ok none) :
    selector = .own := by
  unfold claim at h
  cases selector with
  | own => rfl
  | auto =>
      dsimp only at h
      split_ifs at h
      cases h
  | pinned index =>
      dsimp only at h
      split_ifs at h
      cases h

/-- **Asking** refuses, makes a worker, hands out one that is free, or lets the caller wait. -/
theorem ask_asked (selector : Selector) : (ask selector).Leaves pool (pool.Asked selector) := by
  unfold ask
  rw [Work.leaves_bind_iff, Work.leaves_state]
  dsimp only
  rw [Work.leaves_bind_iff, Work.leaves_ofExcept]
  cases hclaim : pool.claim selector with
  | error error => exact .refused error hclaim
  | ok claimed =>
      cases claimed with
      | none => exact .own (eq_own_of_claim hclaim)
      | some claimant =>
          have hclaims := claims_of_claim hclaim
          dsimp only [serve]
          rw [Work.leaves_bind_iff, Work.leaves_state]
          dsimp only
          cases hfound : pool.find? claimant with
          | some index => exact .served hclaims hfound
          | none => exact .blocked hclaims hfound

/-! ## Giving back -/

/-- The pool in which the claimant that waits has got a worker that was held. -/
def passOn (claimant : Claimant) (slot : Slot) : Pool :=
  (pool.without slot).grant claimant slot.index

theorem giveBack_run (slot : Slot) :
    (giveBack slot).run pool =
      ⟨.ok (pool.without slot).wake.1, (pool.without slot).wake.2, [.workerReleased slot.index]⟩ :=
  rfl

variable {pool}

theorem books_passOn {claimant : Claimant} {slot : Slot} (hadmits : claimant.Admits slot) :
    (pool.passOn claimant slot).books =
      { pool.books with
        held := slot :: pool.held.erase slot
        waiting := none
        acquisitions := pool.acquisitions + 1
        waits := if claimant.index.isNone then pool.waits + 1 else pool.waits } := by
  have hhanded := (pool.without slot).books_hand_waited claimant slot.index
  rw [Claimant.Admits.slot_eq hadmits] at hhanded
  exact congrArg (fun books : Books => { books with waiting := none }) hhanded

/-- Nobody goes on while whoever waits has nothing to take. -/
theorem wake_of_blocked (hblocked : pool.books.Blocked) : pool.wake = (none, pool) := by
  unfold wake
  cases hwaiting : pool.waiting with
  | none => rfl
  | some claimant =>
      dsimp only
      rw [find?_eq_none_iff.mpr (hblocked claimant hwaiting)]

/-- A worker that was handed out last comes back to where it was, and nobody is better off. -/
theorem giveBack_of_blocked {slot : Slot} {held : List Slot} (hheld : pool.held = slot :: held)
    (hblocked : Books.Blocked { pool.books with held := held }) :
    (giveBack slot).run pool =
      ⟨.ok none, { pool with held := held }, [.workerReleased slot.index]⟩ := by
  have hwithout : pool.without slot = { pool with held := held } := by
    unfold without
    rw [hheld, List.erase_cons_head]
  have hidle : Books.Blocked { pool with held := held }.books := hblocked
  rw [giveBack_run, hwithout, wake_of_blocked hidle]

/-- A worker that would not do lets nobody go on. -/
theorem wake_without_unwanted (hblocked : pool.books.Blocked) {slot : Slot}
    (hunwanted : ∀ claimant, pool.waiting = some claimant → ¬claimant.Admits slot) :
    (pool.without slot).wake = (none, pool.without slot) :=
  wake_of_blocked (hblocked.erase hunwanted)

/-- **Whoever waits gets the very worker** that is given back, if it would do: no other one that
would do is free. -/
theorem wake_without_wanted (hblocked : pool.books.Blocked) (hnodup : pool.held.Nodup)
    {claimant : Claimant} (hwaiting : pool.waiting = some claimant) {slot : Slot}
    (hadmits : claimant.Admits slot) :
    (pool.without slot).wake = (some slot, pool.passOn claimant slot) := by
  have hfound : (pool.without slot).find? claimant = some slot.index := by
    apply find?_eq_some_of_only hadmits hnodup.not_mem_erase
    intro other hother hne
    exact (List.mem_erase_of_ne hne).mpr (hblocked claimant hwaiting other hother)
  have hwaits : (pool.without slot).waiting = some claimant := hwaiting
  unfold wake
  rw [hwaits]
  dsimp only
  rw [hfound]
  dsimp only
  rw [Claimant.Admits.slot_eq hadmits]
  rfl

/-! ## Other slots -/

variable (pool)

/-- Nothing but the slots of the pool is other than before. -/
def Reslots (before after : Pool) : Prop :=
  ∃ slots cursor, before.slots.number ≤ slots.number ∧
    after = { before with slots := slots, cursor := cursor }

/-- Fresh slots have a number that no slots of the pool had before. -/
theorem refill_does (workers : Nat) :
    (refill workers).Leaves pool fun _ after => after =
      if workers = 0 then pool
      else { pool with slots := ⟨pool.slots.number + 1, workers⟩, cursor := 0 } := by
  unfold refill
  split_ifs with hworkers
  · rfl
  · rw [Work.leaves_bind_iff, Work.leaves_state]
    dsimp only
    split_ifs
    · rfl
    · rfl

theorem empty_does :
    empty.Leaves pool fun _ after => after =
      { pool with slots := ⟨pool.slots.number, 0⟩ } := by
  unfold empty
  rw [Work.leaves_bind_iff, Work.leaves_state]
  dsimp only
  split_ifs
  · rfl
  · rfl

theorem refill_reslots (workers : Nat) :
    (refill workers).Leaves pool fun _ after => pool.Reslots after := by
  apply (pool.refill_does workers).mono
  intro _ after hafter
  split_ifs at hafter
  · exact ⟨pool.slots, pool.cursor, Nat.le_refl _, hafter⟩
  · exact ⟨_, _, Nat.le_succ _, hafter⟩

theorem empty_reslots : empty.Leaves pool fun _ after => pool.Reslots after :=
  pool.empty_does.mono fun _ _ hafter =>
    ⟨⟨pool.slots.number, 0⟩, pool.cursor, Nat.le_refl _, hafter⟩

/-- In a new pool nobody has or wants a worker. -/
theorem books_ofSettings (settings : Settings) :
    ∃ slots, (ofSettings settings).state.books = ⟨slots, [], none, 0, 0, 0⟩ := by
  have hmade : Work.Leaves (do Work.ofExcept settings.check; refill settings.workers)
      (unready settings) fun _ after => ∃ slots, after.books = ⟨slots, [], none, 0, 0, 0⟩ := by
    rw [Work.leaves_bind_iff, Work.leaves_ofExcept]
    cases settings.check with
    | error error => exact ⟨_, rfl⟩
    | ok u =>
        apply (refill_reslots (unready settings) settings.workers).mono
        rintro _ _ ⟨slots, cursor, -, rfl⟩
        exact ⟨slots, rfl⟩
  exact hmade

end Pool

end Snapshot
