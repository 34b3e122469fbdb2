import Snapshot.Proofs.Worker.Rotation
import Snapshot.Worker.Traffic

/-!
# No worker is overlooked

While somebody tries the slots one after the other, workers behind him may come free.  The releases
of those cannot be counted as long as he has the lock, so the telling is still to come when he goes
to sleep (`Traffic.Thorough`).  From then on somebody is on the way to wake him for every worker
that would do and is not held (`Traffic.Kept`).  No step of anybody breaks this
(`Traffic.Kept.step`), and so it holds in every run (`Traffic.Kept.run`).
-/

namespace Snapshot

theorem Claimant.admits_any_iff {claimant : Claimant} (hany : claimant.index = none) {slot : Slot} :
    claimant.Admits slot ↔ slot.set = claimant.slots.number ∧ slot.index < claimant.slots.size := by
  unfold Claimant.Admits
  rw [hany]

theorem Claimant.admits_index_iff {claimant : Claimant} {index : Nat}
    (hindex : claimant.index = some index) {slot : Slot} :
    claimant.Admits slot ↔ slot = ⟨claimant.slots.number, index⟩ := by
  unfold Claimant.Admits
  rw [hindex, Slot.mk.injEq]

namespace Traffic

variable {t after : Traffic} {move : Move}

/-! ## What is kept -/

theorem asleep_iff :
    t.asleep = true ↔ (∃ claimant, t.pool.waiting = some claimant ∧ claimant.index = none) ∧
      ∀ look, t.looking = some look → look.again = false := by
  unfold asleep
  rw [Bool.and_eq_true, Option.any_eq_true, Bool.not_eq_true', Option.any_eq_false]
  simp only [Option.isNone_iff_eq_none]

/-- Who has the lock will come to every worker that would do, unless it is held, or is being let go
of and the release cannot be counted before the lock is given up. -/
structure Thorough (t : Traffic) (look : Look) : Prop where
  any : look.claimant.index = none
  waits : look.again = true → t.pool.waiting = some look.claimant
  left_lt : ∀ index ∈ look.left, index < look.claimant.slots.size
  sought : ∀ slot, look.claimant.Admits slot →
    slot ∈ t.pool.held ∨ slot.index ∈ look.left ∨ slot ∈ t.freed

theorem Thorough.of_same {look : Look} (h : t.Thorough look) (hpool : after.pool = t.pool)
    (hfreed : after.freed = t.freed) : after.Thorough look where
  any := h.any
  waits := by rw [hpool]; exact h.waits
  left_lt := h.left_lt
  sought := by rw [hpool, hfreed]; exact h.sought

/-- **No worker is overlooked.**  If the call that waits sleeps, every worker that would do is held,
or somebody is on the way to wake it. -/
structure Kept (t : Traffic) : Prop where
  thorough : ∀ look, t.looking = some look → t.Thorough look
  awaited : t.asleep = true → ∀ claimant, t.pool.waiting = some claimant →
    ∀ slot, claimant.Admits slot →
      slot ∈ t.pool.held ∨ slot ∈ t.freed ∨ slot ∈ t.counted ∨ t.told = true
  told_asleep : t.told = true → t.asleep = true

namespace Kept

variable (h : t.Kept)

include h

/-- Nobody has been told of anything while the call that waits looks. -/
theorem untold {look : Look} (hlook : t.looking = some look) (hagain : look.again = true) :
    t.told = false := by
  by_contra htold
  rw [Bool.not_eq_false] at htold
  rw [(asleep_iff.mp (h.told_asleep htold)).2 look hlook] at hagain
  cases hagain

/-- Who was told of a release waits for any worker. -/
theorem exists_of_told (htold : t.told = true) :
    ∃ claimant, t.pool.waiting = some claimant ∧ claimant.index = none :=
  (asleep_iff.mp (h.told_asleep htold)).1

theorem any_of_told (htold : t.told = true) {claimant : Claimant}
    (hwaiting : t.pool.waiting = some claimant) : claimant.index = none := by
  obtain ⟨found, hfound, hany⟩ := h.exists_of_told htold
  rwa [Option.some.inj (hwaiting.symm.trans hfound)]

theorem untold_of_none (hnone : t.pool.waiting = none) : t.told = false := by
  by_contra htold
  rw [Bool.not_eq_false] at htold
  obtain ⟨claimant, hwaiting, -⟩ := h.exists_of_told htold
  cases hnone.symm.trans hwaiting

theorem untold_of_index {claimant : Claimant} {index : Nat}
    (hwaiting : t.pool.waiting = some claimant) (hindex : claimant.index = some index) :
    t.told = false := by
  by_contra htold
  rw [Bool.not_eq_false] at htold
  cases hindex.symm.trans (h.any_of_told htold hwaiting)

/-- Nothing is overlooked because more workers are held, or because one is let go of. -/
theorem grown (hlooking : after.looking = t.looking)
    (hwaiting : after.pool.waiting = t.pool.waiting) (htold : after.told = t.told)
    (hheld : ∀ slot ∈ t.pool.held, slot ∈ after.pool.held ∨ slot ∈ after.freed)
    (hfreed : ∀ slot ∈ t.freed, slot ∈ after.freed)
    (hcounted : ∀ slot ∈ t.counted, slot ∈ after.counted) : after.Kept := by
  have hasleep : after.asleep = t.asleep := by
    unfold asleep
    rw [hlooking, hwaiting]
  refine ⟨fun look hlook => ?_, fun hsleeps claimant hwaits slot hadmits => ?_, fun hknows => ?_⟩
  · obtain ⟨hany, hwaits, hleft, hsought⟩ := h.thorough look (hlooking ▸ hlook)
    refine ⟨hany, fun hagain => hwaiting.trans (hwaits hagain), hleft, fun slot hadmits => ?_⟩
    rcases hsought slot hadmits with hslot | hslot | hslot
    · exact (hheld slot hslot).imp_right .inr
    · exact .inr (.inl hslot)
    · exact .inr (.inr (hfreed slot hslot))
  · rw [htold]
    rcases h.awaited (hasleep ▸ hsleeps) claimant (hwaiting ▸ hwaits) slot hadmits with
      hslot | hslot | hslot | hslot
    · exact (hheld slot hslot).imp_right .inl
    · exact .inr (.inl (hfreed slot hslot))
    · exact .inr (.inr (.inl (hcounted slot hslot)))
    · exact .inr (.inr (.inr hslot))
  · rw [hasleep]
    exact h.told_asleep (htold ▸ hknows)

/-- Who has the lock and leaves the slots to which nobody was let in has left none out. -/
theorem held_or_freed {look : Look} (hlook : t.looking = some look) (hleft : look.left = [])
    {slot : Slot} (hadmits : look.claimant.Admits slot) : slot ∈ t.pool.held ∨ slot ∈ t.freed := by
  rcases (h.thorough look hlook).sought slot hadmits with hslot | hslot | hslot
  · exact .inl hslot
  · rw [hleft] at hslot
    exact absurd hslot List.not_mem_nil
  · exact .inr hslot

end Kept

/-- A caller that begins to look has all its slots before it. -/
theorem thorough_searchOrder {claimant : Claimant} (hany : claimant.index = none) {again : Bool}
    (hwaits : again = true → t.pool.waiting = some claimant) :
    t.Thorough ⟨claimant, t.pool.searchOrder claimant.slots, again⟩ where
  any := hany
  waits := hwaits
  left_lt _ hindex := Pool.mem_searchOrder.mp hindex
  sought _ hadmits :=
    .inr (.inl (Pool.mem_searchOrder.mpr ((Claimant.admits_any_iff hany).mp hadmits).2))

namespace Kept

/-- The lock is given up by somebody else than the call that waits. -/
theorem unlock (h : t.Kept) {look : Look} (hlook : t.looking = some look)
    (hfirst : look.again = false) : Kept { t with looking := none } := by
  have hasleep : asleep { t with looking := none } = t.asleep := by
    unfold asleep
    rw [hlook, Option.any_some, hfirst]
    rfl
  exact ⟨nofun, fun hsleeps => h.awaited (hasleep ▸ hsleeps), fun htold =>
    hasleep ▸ h.told_asleep htold⟩

/-- Nobody sleeps who would have to be woken. -/
theorem of_not_asleep (hthorough : ∀ look, t.looking = some look → t.Thorough look)
    (hasleep : t.asleep = false) (htold : t.told = false) : t.Kept where
  thorough := hthorough
  awaited hsleeps := by rw [hasleep] at hsleeps; cases hsleeps
  told_asleep hknows := by rw [htold] at hknows; cases hknows

/-- Other slots are no matter of those that have found theirs. -/
theorem reslots (h : t.Kept) {pool : Pool} (hslots : t.pool.Reslots pool) :
    Kept { t with pool := pool } := by
  obtain ⟨slots, cursor, -, rfl⟩ := hslots
  exact h.grown rfl rfl rfl (fun _ => .inl) (fun _ => id) (fun _ => id)

/-- The call that waits goes to sleep when it has tried everything. -/
theorem sleeps (h : t.Kept) {look : Look} (hlook : t.looking = some look) (hleft : look.left = [])
    (htold : t.told = false) {waiting : Option Claimant} (hwaiting : waiting = some look.claimant) :
    Kept { t with pool := { t.pool with waiting := waiting }, looking := none } where
  thorough := nofun
  awaited _ claimant hwaits slot hadmits := by
    obtain rfl : look.claimant = claimant := Option.some.inj (hwaiting.symm.trans hwaits)
    exact (h.held_or_freed hlook hleft hadmits).imp_right .inl
  told_asleep hknows := by cases htold.symm.trans hknows

/-- **One step** overlooks no worker. -/
theorem step (h : t.Kept) (hstep : t.Step move after) : after.Kept := by
  cases hstep with
  | ask selector =>
      unfold asked
      split
      · exact h
      · exact h.grown rfl rfl rfl (fun _ => .inl) (fun _ => id) (fun _ => id)
      · exact h.grown rfl rfl rfl (fun _ => .inl) (fun _ => id) (fun _ => id)
  | lock harrived hany hlock =>
      refine ⟨fun look hlook => ?_, fun hsleeps => ?_, fun htold => ?_⟩
      · cases hlook
        exact Thorough.of_same (thorough_searchOrder hany nofun) rfl rfl
      · exact h.awaited (asleep_iff.mpr ⟨(asleep_iff.mp hsleeps).1, fun look hlook =>
          nomatch hlock.symm.trans hlook⟩)
      · refine asleep_iff.mpr ⟨(asleep_iff.mp (h.told_asleep htold)).1, fun look hlook => ?_⟩
        cases hlook
        rfl
  | lockAgain hwaiting htold hlock =>
      refine of_not_asleep (fun look hlook => ?_) ?_ rfl
      · cases hlook
        exact Thorough.of_same
          (thorough_searchOrder (h.any_of_told htold hwaiting) fun _ => hwaiting) rfl rfl
      · simp [asleep]
  | @pass look index left hlook hleft hheld =>
      obtain ⟨hany, hwaits, hlt, hsought⟩ := h.thorough look hlook
      have hasleep : asleep { t with looking := some { look with left := left } } = t.asleep := by
        unfold asleep
        rw [hlook]
        rfl
      refine ⟨fun other hother => ?_, fun hsleeps => h.awaited (hasleep ▸ hsleeps), fun htold =>
        hasleep ▸ h.told_asleep htold⟩
      cases hother
      rw [hleft] at hlt hsought
      refine ⟨hany, hwaits, fun other hother => hlt other (List.mem_cons_of_mem _ hother), ?_⟩
      intro slot hadmits
      rcases hsought slot hadmits with hslot | hslot | hslot
      · exact .inl hslot
      · rcases List.mem_cons.mp hslot with hnow | hlater
        · have hsame : look.slot index = slot := by
            rw [← hnow]
            exact Claimant.Admits.slot_eq hadmits
          exact .inl (hsame ▸ hheld)
        · exact .inr (.inl hlater)
      · exact .inr (.inr hslot)
  | take hlook hleft hfree hfirst =>
      exact (h.unlock hlook hfirst).grown rfl rfl rfl
        (fun _ hslot => .inl (List.mem_cons_of_mem _ hslot)) (fun _ => id) (fun _ => id)
  | takeAgain hlook hleft hfree hagain =>
      exact of_not_asleep nofun rfl (h.untold hlook hagain)
  | sleep hlook hleft hfirst halone =>
      exact h.sleeps hlook hleft (h.untold_of_none halone) rfl
  | sleepAgain hlook hleft hagain =>
      exact h.sleeps hlook hleft (h.untold hlook hagain) ((h.thorough _ hlook).waits hagain)
  | enter harrived hindex hfree =>
      exact h.grown rfl rfl rfl (fun _ hslot => .inl (List.mem_cons_of_mem _ hslot))
        (fun _ => id) (fun _ => id)
  | @queue claimant index harrived hindex hheld halone =>
      refine of_not_asleep (fun look hlook => ?_) ?_ (h.untold_of_none halone)
      · obtain ⟨hany, hwaits, hlt, hsought⟩ := h.thorough look hlook
        exact ⟨hany, fun hagain => (nomatch halone.symm.trans (hwaits hagain)), hlt,
          hsought⟩
      · unfold asleep
        rw [Option.any_some, hindex]
        rfl
  | @enterAgain claimant index hwaiting hindex hfree =>
      refine of_not_asleep (fun look hlook => ?_) rfl (h.untold_of_index hwaiting hindex)
      obtain ⟨hany, hwaits, hlt, hsought⟩ := h.thorough look hlook
      refine ⟨hany, fun hagain => ?_, hlt, fun slot hadmits => ?_⟩
      · obtain rfl := Option.some.inj (hwaiting.symm.trans (hwaits hagain))
        cases hindex.symm.trans hany
      · exact (hsought slot hadmits).imp_left (List.mem_cons_of_mem _)
  | @free slot hheld =>
      refine h.grown rfl rfl rfl (fun other hother => ?_)
        (fun _ hother => List.mem_cons_of_mem _ hother) (fun _ => id)
      by_cases hsame : other = slot
      · exact .inr (hsame ▸ List.mem_cons_self)
      · exact .inl ((List.mem_erase_of_ne hsame).mpr hother)
  | @count slot hfreed hlock =>
      refine ⟨fun look hlook => (nomatch hlock.symm.trans hlook), fun hsleeps claimant hwaits other
        hadmits => ?_, h.told_asleep⟩
      rcases h.awaited hsleeps claimant hwaits other hadmits with hother | hother | hother | hother
      · exact .inl hother
      · by_cases hsame : other = slot
        · exact .inr (.inr (.inl (hsame ▸ List.mem_cons_self)))
        · exact .inr (.inl ((List.mem_erase_of_ne hsame).mpr hother))
      · exact .inr (.inr (.inl (List.mem_cons_of_mem _ hother)))
      · exact .inr (.inr (.inr hother))
  | tell hcounted =>
      refine ⟨fun look hlook => ?_, fun hsleeps claimant hwaits slot hadmits => ?_, fun htold => ?_⟩
      · exact (h.thorough look hlook).of_same rfl rfl
      · have hasleep : t.asleep = true := hsleeps
        exact .inr (.inr (.inr (by rw [hasleep, Bool.or_true])))
      · show t.asleep = true
        rcases Bool.or_eq_true_iff.mp htold with hknew | hsleeps
        · exact h.told_asleep hknew
        · exact hsleeps
  | refill workers => exact h.reslots (t.pool.refill_reslots workers)
  | empty => exact h.reslots t.pool.empty_reslots

protected theorem run (h : t.Kept) {moves : List Move} (hrun : Run t moves after) : after.Kept := by
  induction hrun with
  | nil t => exact h
  | cons hstep hrun ih => exact ih (h.step hstep)

end Kept

/-! ## Who gets what -/

/-- The call that waits has got a worker that was free, and is accounted for. -/
structure Serves (t : Traffic) (claimant : Claimant) (slot : Slot) (after : Traffic) : Prop where
  admits : claimant.Admits slot
  free : slot ∉ t.pool.held
  pool_eq : after.pool = t.pool.grant claimant slot.index

/-- What a step does to the workers that are held, and to the call that waits. -/
inductive Touches (t : Traffic) (move : Move) (after : Traffic) : Prop
  | neither (hheld : after.pool.held = t.pool.held) (hwaiting : after.pool.waiting = t.pool.waiting)
  | parks (halone : t.pool.waiting = none) (hheld : after.pool.held = t.pool.held)
  | hands {slot : Slot} (hfree : slot ∉ t.pool.held) (hheld : after.pool.held = slot :: t.pool.held)
    (hwaiting : after.pool.waiting = t.pool.waiting)
  | serves {claimant : Claimant} {slot : Slot} (hwaiting : t.pool.waiting = some claimant)
    (hserved : t.Serves claimant slot after)
  | frees {slot : Slot} (hmove : move = .free slot)
    (hheld : after.pool.held = t.pool.held.erase slot)
    (hwaiting : after.pool.waiting = t.pool.waiting)

theorem Touches.of_reslots {pool : Pool} (hslots : t.pool.Reslots pool) :
    Touches t move { t with pool := pool } := by
  obtain ⟨slots, cursor, -, rfl⟩ := hslots
  exact .neither rfl rfl

/-- Every step hands out one worker at most, and lets go of one at most. -/
theorem Kept.touches (h : t.Kept) (hstep : t.Step move after) : Touches t move after := by
  cases hstep with
  | ask selector =>
      unfold asked
      split
      · exact .neither rfl rfl
      · exact .neither rfl rfl
      · exact .neither rfl rfl
  | take hlook hleft hfree hfirst => exact .hands hfree rfl rfl
  | takeAgain hlook hleft hfree hagain =>
      have hthorough := h.thorough _ hlook
      have hlt := hthorough.left_lt _ (hleft ▸ List.mem_cons_self)
      exact .serves (hthorough.waits hagain)
        ⟨(Claimant.admits_any_iff hthorough.any).mpr ⟨rfl, hlt⟩, hfree, rfl⟩
  | sleep hlook hleft hfirst halone => exact .parks halone rfl
  | queue harrived hindex hheld halone => exact .parks halone rfl
  | enter harrived hindex hfree => exact .hands hfree rfl rfl
  | enterAgain hwaiting hindex hfree =>
      exact .serves hwaiting ⟨(Claimant.admits_index_iff hindex).mpr rfl, hfree, rfl⟩
  | free hheld => exact .frees rfl rfl rfl
  | refill workers => exact .of_reslots (t.pool.refill_reslots workers)
  | empty => exact .of_reslots t.pool.empty_reslots
  | lock | lockAgain | pass | sleepAgain | count | tell => exact .neither rfl rfl

/-- What is held after the call that waits was served. -/
theorem Serves.held_eq {claimant : Claimant} {slot : Slot} (h : t.Serves claimant slot after) :
    after.pool.held = slot :: t.pool.held := by
  rw [h.pool_eq, ← Claimant.Admits.slot_eq h.admits]
  rfl

/-- **Who waits** waits on, or gets a worker that is free. -/
theorem Kept.waits_or_serves (h : t.Kept) (hstep : t.Step move after) {claimant : Claimant}
    (hwaiting : t.pool.waiting = some claimant) :
    after.pool.waiting = some claimant ∨ ∃ slot, t.Serves claimant slot after := by
  cases h.touches hstep with
  | neither hheld hsame | hands hfree hheld hsame | frees hmove hheld hsame =>
      exact .inl (hsame.trans hwaiting)
  | parks halone => cases hwaiting.symm.trans halone
  | @serves found slot hfound hserved =>
      obtain rfl := Option.some.inj (hwaiting.symm.trans hfound)
      exact .inr ⟨slot, hserved⟩

/-- A worker that is held stays so until somebody lets go of it. -/
theorem Kept.held_or_free (h : t.Kept) (hstep : t.Step move after) {slot : Slot}
    (hheld : slot ∈ t.pool.held) : slot ∈ after.pool.held ∨ move = .free slot := by
  cases h.touches hstep with
  | neither hsame | parks halone hsame => exact .inl (hsame ▸ hheld)
  | hands hfree hmore => exact .inl (hmore ▸ List.mem_cons_of_mem _ hheld)
  | serves hwaiting hserved => exact .inl (hserved.held_eq ▸ List.mem_cons_of_mem _ hheld)
  | @frees other hmove hless =>
      by_cases hsame : slot = other
      · exact .inr (hsame ▸ hmove)
      · exact .inl (hless ▸ (List.mem_erase_of_ne hsame).mpr hheld)

end Traffic

end Snapshot
