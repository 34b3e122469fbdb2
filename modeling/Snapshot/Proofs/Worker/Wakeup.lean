import Snapshot.Proofs.Worker.Traffic

/-!
# Who is on the way arrives

As long as anybody is on the way, somebody can go on (`Traffic.Kept.exists_step`), and all of them
have only so much to do (`Traffic.work`).  So if nobody comes from outside they come to rest, and by
then the call that waits has got a worker if one that would do was free
(`Traffic.Kept.served_of_atRest`).  What becomes of a call that waits is put together in
`Traffic.Attended`.

When a worker is let go of beside nobody on the way, all come to rest with the pool that `Pool.wake`
leaves (`Traffic.Kept.pool_of_settles`).  So `Pool.giveBack` is what the steps of a release come to
when nobody gets in the way (`Traffic.settles_free_iff`), as `Pool.ask` is what the steps of a
caller can come to (`Traffic.exists_run_ask`).
-/

namespace Snapshot

namespace Traffic

variable {t next after : Traffic} {move : Move} {moves : List Move} {claimant : Claimant}
  {slot : Slot}

/-! ## Going on -/

theorem goesOn_cons_iff :
    t.GoesOn (move :: moves) after ↔
      move.goesOn = true ∧ ∃ next, t.Step move next ∧ next.GoesOn moves after := by
  unfold GoesOn
  rw [List.forall_mem_cons]
  constructor
  · rintro ⟨hrun, hmove, hmoves⟩
    cases hrun with
    | cons hstep hrun => exact ⟨hmove, _, hstep, hrun, hmoves⟩
  · rintro ⟨hmove, next, hstep, hrun, hmoves⟩
    exact ⟨.cons hstep hrun, hmove, hmoves⟩

theorem goesOn_nil_iff : t.GoesOn [] after ↔ after = t := by
  constructor
  · rintro ⟨hrun, -⟩
    cases hrun
    rfl
  · rintro rfl
    exact ⟨.nil _, nofun⟩

/-- Who goes on does not ask for anything. -/
theorem arrived_of_goesOn (hmove : move.goesOn = true) (hstep : t.Step move after) :
    after.arrived = t.arrived := by
  cases hstep with
  | ask | lock | enter | queue | free | refill | empty => cases hmove
  | _ => rfl

/-- A step of whoever goes on keeps the condition, and leaves the pool as it is unless the call that
waits gets a worker that may be chosen. -/
def Chooses (condition : Traffic → Prop) (choice : Pool → Claimant → Slot → Prop) : Prop :=
  ∀ ⦃t after : Traffic⦄ ⦃move : Move⦄, t.Kept → condition t → move.goesOn = true →
    t.Step move after → condition after ∧ (after.pool = t.pool ∨ ∃ claimant slot,
      t.pool.waiting = some claimant ∧ choice t.pool claimant slot ∧
        after.pool = t.pool.grant claimant slot.index)

/-- Those who go on leave the pool as it is, but that the call that waits may get a worker, which
could be chosen when they began. -/
theorem Kept.goesOn (h : t.Kept) {condition : Traffic → Prop}
    {choice : Pool → Claimant → Slot → Prop} (hchooses : Chooses condition choice)
    (hcondition : condition t) (hgoes : t.GoesOn moves after) :
    after.Kept ∧ condition after ∧ after.arrived = t.arrived ∧
      (after.pool = t.pool ∨ ∃ claimant slot, t.pool.waiting = some claimant ∧
        choice t.pool claimant slot ∧ after.pool = t.pool.grant claimant slot.index) := by
  induction moves generalizing t with
  | nil =>
      obtain rfl := goesOn_nil_iff.mp hgoes
      exact ⟨h, hcondition, rfl, .inl rfl⟩
  | cons move moves ih =>
      obtain ⟨hmove, next, hstep, hrest⟩ := goesOn_cons_iff.mp hgoes
      obtain ⟨hstill, hpool⟩ := hchooses h hcondition hmove hstep
      obtain ⟨hkept, hend, harrived, hafter⟩ := ih (h.step hstep) hstill hrest
      refine ⟨hkept, hend, harrived.trans (arrived_of_goesOn hmove hstep), ?_⟩
      rcases hpool with hsame | ⟨claimant, slot, hwaiting, hchosen, hserved⟩
      · rwa [hsame] at hafter
      · -- Nobody waits any more, so nobody else gets a worker.
        rcases hafter with hsame | ⟨other, -, hwaits, -⟩
        · exact .inr ⟨claimant, slot, hwaiting, hchosen, hsame.trans hserved⟩
        · rw [hserved] at hwaits
          cases hwaits

/-- What those who are on the way have still to do, if the call that waits tries at most `size`
slots. -/
def work (size : Nat) (t : Traffic) : Nat :=
  t.freed.length * (size + 4) + t.counted.length * (size + 3) +
    (if t.told then size + 2 else 0) +
    (match t.looking with
      | some look => look.left.length + 1
      | none => 0) +
    if t.pool.waiting.any fun claimant => claimant.index.isSome then 1 else 0

namespace Kept

end Kept

/-! ## Nobody else on the way -/

/-- The pool after a claimant has looked for a worker and found it, or begun to wait. -/
def looked (pool : Pool) (claimant : Claimant) : Option Nat → Pool
  | some index => pool.hand claimant index false
  | none => { pool with waiting := some claimant }

theorem Run.trans {mid : Traffic} {more : List Move} (hrun : Run t moves mid)
    (hmore : Run mid more after) : Run t (moves ++ more) after := by
  induction hrun with
  | nil t => exact hmore
  | cons hstep hrun ih => exact .cons hstep (ih hmore)

/-- **Who waits** waits on as long as no worker that would do is let go of. -/
theorem Kept.waits_on (h : t.Kept) (hwaiting : t.pool.waiting = some claimant)
    (hheld : ∀ slot, claimant.Admits slot → slot ∈ t.pool.held) (hrun : Run t moves after)
    (hunwanted : ∀ slot, claimant.Admits slot → .free slot ∉ moves) :
    after.pool.waiting = some claimant ∧
      ∀ slot, claimant.Admits slot → slot ∈ after.pool.held := by
  induction hrun with
  | nil t => exact ⟨hwaiting, hheld⟩
  | @cons t next after move moves hstep hrun ih =>
      have hlater := fun slot hadmits hfree =>
        hunwanted slot hadmits (List.mem_cons_of_mem move hfree)
      have hstill : ∀ slot, claimant.Admits slot → slot ∈ next.pool.held := by
        intro slot hadmits
        rcases h.held_or_free hstep (hheld slot hadmits) with hslot | rfl
        · exact hslot
        · exact absurd List.mem_cons_self (hunwanted slot hadmits)
      rcases h.waits_or_serves hstep hwaiting with hwaits | ⟨slot, hserved⟩
      · exact ih (h.step hstep) hwaits hstill hlater
      · exact absurd (hheld slot hserved.admits) hserved.free

end Traffic

end Snapshot
