import Snapshot.Proofs.Worker.Occupancy

/-!
# Workers take turns

A search for any worker begins at the cursor and goes round the set of slots, and the one who is
served leaves the cursor behind the worker that was found.  `SlotSet.turn` counts the steps from the
cursor to a worker.  The worker that is found has the least turn of all that are free.

So a worker whose turn comes before that of another is found before the other is
(`SlotSet.turn_succ_lt`), and the worker that was found last is the last in turn
(`SlotSet.turn_succ_self`).
-/

namespace Snapshot

/-! ## Turns -/

namespace SlotSet

/-- The steps from the beginning of a search to a worker. -/
def turn (slots : SlotSet) (cursor index : Nat) : Nat :=
  let start := cursor % slots.size
  if start ≤ index then index - start else index + slots.size - start

variable {slots : SlotSet} {cursor index other found : Nat}

/-- The turn of the worker at which a search arrives is the number of its steps. -/
theorem turn_of_step {step : Nat} (hstep : step < slots.size) :
    slots.turn cursor ((cursor % slots.size + step) % slots.size) = step := by
  have hstart := Nat.mod_lt cursor (Nat.zero_lt_of_lt hstep)
  unfold turn
  dsimp only
  rw [Nat.add_mod_eq_ite, Nat.mod_mod, Nat.mod_eq_of_lt hstep]
  split_ifs <;> omega

/-- A search arrives at every worker at its turn. -/
theorem step_turn (hindex : index < slots.size) :
    (cursor % slots.size + slots.turn cursor index) % slots.size = index := by
  have hstart := Nat.mod_lt cursor (Nat.zero_lt_of_lt hindex)
  unfold turn
  dsimp only
  split_ifs with hbehind
  · rw [Nat.add_sub_cancel' hbehind, Nat.mod_eq_of_lt hindex]
  · have hround : cursor % slots.size + (index + slots.size - cursor % slots.size) =
        index + slots.size := by omega
    rw [hround, Nat.add_mod_right, Nat.mod_eq_of_lt hindex]

theorem turn_lt (hindex : index < slots.size) : slots.turn cursor index < slots.size := by
  have hstart := Nat.mod_lt cursor (Nat.zero_lt_of_lt hindex)
  unfold turn
  dsimp only
  split_ifs <;> omega

/-- No two workers have the same turn. -/
theorem eq_of_turn_eq (hindex : index < slots.size) (hother : other < slots.size)
    (hsame : slots.turn cursor index = slots.turn cursor other) : index = other := by
  rw [← @step_turn slots cursor index hindex, hsame, step_turn hother]

/-- The cursor behind a worker, in the set. -/
theorem succ_mod (hfound : found < slots.size) :
    (found + 1) % slots.size = if found + 1 < slots.size then found + 1 else 0 := by
  split_ifs with hnext
  · exact Nat.mod_eq_of_lt hnext
  · rw [show found + 1 = slots.size by omega, Nat.mod_self]

/-- **The worker that was found** is the last in turn after that. -/
theorem turn_succ_self (hfound : found < slots.size) (hindex : index < slots.size)
    (hne : index ≠ found) : slots.turn (found + 1) index < slots.turn (found + 1) found := by
  unfold turn
  dsimp only
  rw [succ_mod hfound]
  split_ifs <;> omega

/-- **Turns are kept**: of two workers that come after the one that was found, the first remains
the first. -/
theorem turn_succ_lt (hfound : found < slots.size) (hindex : index < slots.size)
    (hother : other < slots.size) (hbefore : slots.turn cursor found < slots.turn cursor index)
    (hturn : slots.turn cursor index < slots.turn cursor other) :
    slots.turn (found + 1) index < slots.turn (found + 1) other := by
  have hstart := Nat.mod_lt cursor (Nat.zero_lt_of_lt hfound)
  unfold turn at *
  dsimp only at *
  rw [succ_mod hfound]
  split_ifs at * <;> omega

end SlotSet

/-! ## What a search finds -/

namespace Pool

variable {pool : Pool} {slots : SlotSet} {index : Nat}

variable (pool slots index) in
/-- The worker is free, and all that a search meets before it are held. -/
def FirstFree : Prop :=
  pool.isFree ⟨slots.number, index⟩ = true ∧
    ∃ step < slots.size, (pool.cursor % slots.size + step) % slots.size = index ∧
      ∀ earlier < step,
        pool.isFree ⟨slots.number, (pool.cursor % slots.size + earlier) % slots.size⟩ = false

/-- **A claimant for any worker** gets the first that is free. -/
theorem find?_any_eq_some_iff :
    pool.find? ⟨slots, none⟩ = some index ↔ pool.FirstFree slots index := by
  show (pool.searchOrder slots).find? (fun index => pool.isFree ⟨slots.number, index⟩) = _ ↔ _
  unfold searchOrder FirstFree
  rw [List.find?_map, Option.map_eq_some_iff]
  simp only [List.find?_range_eq_some, Function.comp_apply, List.mem_range, Bool.not_eq_true']
  constructor
  · rintro ⟨step, ⟨hfree, hstep, hearlier⟩, rfl⟩
    exact ⟨hfree, step, hstep, rfl, hearlier⟩
  · rintro ⟨hfree, step, hstep, rfl, hearlier⟩
    exact ⟨step, ⟨hfree, hstep, hearlier⟩, rfl⟩

/-- The first worker that is free has the least turn of all that are. -/
theorem FirstFree.turn_le (h : pool.FirstFree slots index) {other : Nat}
    (hother : other < slots.size) (hfree : pool.isFree ⟨slots.number, other⟩ = true) :
    slots.turn pool.cursor index ≤ slots.turn pool.cursor other := by
  obtain ⟨-, step, hstep, rfl, hearlier⟩ := h
  rw [SlotSet.turn_of_step hstep]
  by_contra hless
  have hheld := hearlier _ (Nat.lt_of_not_le hless)
  rw [SlotSet.step_turn hother, hfree] at hheld
  cases hheld

theorem FirstFree.lt_size (h : pool.FirstFree slots index) : index < slots.size := by
  obtain ⟨-, step, hstep, rfl, -⟩ := h
  exact Nat.mod_lt _ (Nat.zero_lt_of_lt hstep)

/-- **A worker that is free is not passed over**: whoever is found instead comes before it, so
before all that come after it, and it stays before these. -/
theorem FirstFree.turn_succ_lt (h : pool.FirstFree slots index) {patient rival : Nat}
    (hpatient : patient < slots.size) (hrival : rival < slots.size)
    (hfree : pool.isFree ⟨slots.number, patient⟩ = true) (hne : index ≠ patient)
    (hturn : slots.turn pool.cursor patient < slots.turn pool.cursor rival) :
    index ≠ rival ∧ slots.turn (index + 1) patient < slots.turn (index + 1) rival := by
  have hle := h.turn_le hpatient hfree
  have hlt : slots.turn pool.cursor index < slots.turn pool.cursor patient :=
    Nat.lt_of_le_of_ne hle fun hsame => hne (SlotSet.eq_of_turn_eq h.lt_size hpatient hsame)
  refine ⟨?_, SlotSet.turn_succ_lt h.lt_size hpatient hrival hlt hturn⟩
  rintro rfl
  omega

/-! ## What moves the cursor -/

variable (pool)

theorem serve_run (claimant : Claimant) :
    (serve claimant).run pool =
      match pool.find? claimant with
      | some found =>
        ⟨.ok (.pooled ⟨claimant.slots.number, found⟩), pool.hand claimant found false,
          [.workerAcquired found]⟩
      | none => ⟨.ok .blocked, { pool with waiting := some claimant }, []⟩ := by
  have hstate : (Work.state : Work Pool Pool).run pool = ⟨.ok pool, pool, []⟩ := rfl
  unfold serve
  rw [Work.run_bind, hstate]
  dsimp only
  cases pool.find? claimant with
  | some found => rfl
  | none => rfl

/-- Who asks is served like a claimant, unless refused or given a worker of its own. -/
theorem ask_run (selector : Selector) :
    (ask selector).run pool =
      match pool.claim selector with
      | .error error => ⟨.error error, pool, []⟩
      | .ok none => ⟨.ok .own, pool.makeOwn, [.ownWorkerMade]⟩
      | .ok (some claimant) => (serve claimant).run pool := by
  have hstate : (Work.state : Work Pool Pool).run pool = ⟨.ok pool, pool, []⟩ := rfl
  have hclaim : (Work.ofExcept (pool.claim selector)).run pool =
      ⟨pool.claim selector, pool, []⟩ := rfl
  unfold ask
  rw [Work.run_bind, hstate]
  dsimp only
  rw [Work.run_bind, hclaim]
  cases pool.claim selector with
  | error error => rfl
  | ok claimed =>
      cases claimed with
      | none => rfl
      | some claimant => rfl

theorem ask_auto_run :
    (ask .auto).run pool =
      if pool.slots.size = 0 then ⟨.error .noPool, pool, []⟩
      else (serve ⟨pool.slots, none⟩).run pool := by
  rw [ask_run, claim]
  split_ifs <;> rfl

/-- Only who asks for any worker and gets one moves the cursor. -/
theorem ask_cursor (selector : Selector) :
    (ask selector).Leaves pool fun result after => after.cursor =
      match selector, result with
      | .auto, .ok (.pooled slot) => slot.index + 1
      | _, _ => pool.cursor := by
  apply (pool.ask_asked selector).mono
  intro result after hasked
  cases hasked with
  | refused error => cases selector <;> rfl
  | own hown =>
      subst hown
      rfl
  | served hclaims hfound =>
      cases hclaims with
      | auto hsize => rfl
      | pinned hindex => rfl
  | blocked hclaims hnone => cases selector <;> rfl

/-- Only a claimant for any worker that has waited and gets one moves the cursor. -/
theorem wake_cursor :
    pool.wake.2.cursor =
      match pool.waiting, pool.wake.1 with
      | some ⟨_, none⟩, some slot => slot.index + 1
      | _, _ => pool.cursor := by
  unfold wake
  cases pool.waiting with
  | none => rfl
  | some claimant =>
      obtain ⟨slots, wanted⟩ := claimant
      dsimp only
      cases pool.find? ⟨slots, wanted⟩ with
      | none => cases wanted <;> rfl
      | some index => cases wanted <;> rfl

variable {pool}

/-- Who asks a pool for any worker and gets one has found it among the present slots. -/
theorem find?_of_ask {slot : Slot}
    (hasked : ((ask .auto).run pool).result = .ok (.pooled slot)) :
    pool.slots.size ≠ 0 ∧ slot.set = pool.slots.number ∧
      pool.find? ⟨pool.slots, none⟩ = some slot.index := by
  rw [pool.ask_auto_run] at hasked
  split_ifs at hasked with hsize
  rw [pool.serve_run] at hasked
  cases hfind : pool.find? ⟨pool.slots, none⟩ with
  | none =>
      rw [hfind] at hasked
      cases hasked
  | some found =>
      rw [hfind] at hasked
      cases hasked
      exact ⟨hsize, rfl, rfl⟩

/-- Who has waited and gets a worker has found it. -/
theorem find?_of_wake {claimant : Claimant} (hwaiting : pool.waiting = some claimant) {slot : Slot}
    (hwoken : pool.wake.1 = some slot) :
    ∃ found, slot = ⟨claimant.slots.number, found⟩ ∧ pool.find? claimant = some found := by
  unfold wake at hwoken
  rw [hwaiting] at hwoken
  dsimp only at hwoken
  cases hfound : pool.find? claimant with
  | none =>
      rw [hfound] at hwoken
      cases hwoken
  | some found =>
      rw [hfound] at hwoken
      cases hwoken
      exact ⟨found, rfl, rfl⟩

end Pool

end Snapshot
