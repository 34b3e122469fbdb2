import Snapshot.Proofs.Worker.Occupancy
import Snapshot.Proofs.Worker.Sound

/-!
# The workers of a pool

Handing workers out, taking them back and changing the slots are matters of the
pool alone: none of it touches a worker.  So a pool whose workers are sound stays
one, and every worker that it hands out is sound, used before or not.
-/

namespace Snapshot

open Work

theorem mem_of_lookup_eq_some {α β : Type} [BEq α] [LawfulBEq α] {entries : List (α × β)} {a : α}
    {b : β} (h : entries.lookup a = some b) : (a, b) ∈ entries := by
  obtain ⟨before, after, rfl, -⟩ := List.lookup_eq_some_iff.mp h
  exact List.mem_append_right before List.mem_cons_self

namespace Pool

/-! ## The pool does not touch its workers -/

variable (pool : Pool)

theorem ask_leaves (selector : Selector) :
    (ask selector).Leaves pool fun _ after => after.workers = pool.workers := by
  apply (pool.ask_asked selector).mono
  intro result after hasked
  cases hasked with
  | refused error => rfl
  | own hown => rfl
  | served hclaims hfound => rfl
  | blocked hclaims hnone => rfl

theorem workers_wake : pool.wake.2.workers = pool.workers := by
  unfold wake
  cases pool.waiting with
  | none => rfl
  | some claimant =>
      dsimp only
      cases pool.find? claimant with
      | none => rfl
      | some index => rfl

theorem giveBack_leaves (slot : Slot) :
    (giveBack slot).Leaves pool fun _ after => after.workers = pool.workers :=
  workers_wake { pool with held := pool.held.erase slot }

theorem Reslots.workers_eq {before after : Pool} (h : before.Reslots after) :
    after.workers = before.workers := by
  obtain ⟨slots, cursor, -, rfl⟩ := h
  rfl

/-! ## Sound pools -/

variable {pool}

/-- All workers that were used are sound. -/
def Sound (pool : Pool) : Prop := ∀ entry ∈ pool.workers, entry.2.Sound

theorem sound_unready (settings : Settings) : (unready settings).Sound :=
  fun _ h => absurd h List.not_mem_nil

theorem Sound.of_workers {after : Pool} (h : pool.Sound)
    (hworkers : after.workers = pool.workers) : after.Sound := by
  unfold Sound
  rwa [hworkers]

theorem Sound.worker (h : pool.Sound) (slot : Slot) : (pool.worker slot).Sound := by
  unfold Pool.worker
  cases hlookup : pool.workers.lookup slot with
  | none => exact Worker.sound_fresh _
  | some worker => exact h _ (mem_of_lookup_eq_some hlookup)

theorem Sound.putWorker (h : pool.Sound) (slot : Slot) {worker : Worker} (hworker : worker.Sound) :
    (pool.putWorker slot worker).Sound := by
  intro entry hentry
  rcases List.mem_cons.mp hentry with rfl | hentry
  · exact hworker
  · exact h entry (List.mem_filter.mp hentry).1

theorem sound_ofSettings (settings : Settings) : (ofSettings settings).state.Sound := by
  have hleaves : Leaves (do ofExcept settings.check; refill settings.workers) (unready settings)
      fun _ after => after.Sound := by
    rw [leaves_bind_iff, leaves_ofExcept]
    cases settings.check with
    | error error => exact sound_unready settings
    | ok u =>
        exact (refill_reslots _ _).mono fun _ after h =>
          (sound_unready settings).of_workers h.workers_eq
  exact hleaves

end Pool

end Snapshot
