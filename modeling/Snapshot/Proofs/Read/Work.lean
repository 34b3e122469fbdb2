import Snapshot.Read.Work

/-!
# What a piece of work leaves

`Work.Leaves` states what is true of the result of a piece of work and of the
state behind it, whatever was logged on the way.  The rules follow the ways in
which work is put together, so a program is gone through from its first step to
its last without unfolding what an outcome is.
-/

namespace Snapshot.Work

variable {σ τ α β : Type}

/-- The result and the state that the work leaves are as stated. -/
def Leaves (work : Work σ α) (s : σ) (post : Except ReadError α → σ → Prop) : Prop :=
  post (work.run s).result (work.run s).state

variable {s : σ} {post : Except ReadError α → σ → Prop}

theorem Leaves.mono {other : Except ReadError α → σ → Prop} {work : Work σ α}
    (h : work.Leaves s post) (himplies : ∀ result after, post result after → other result after) :
    work.Leaves s other :=
  himplies _ _ h

/-- Work is followed up to its first step, and on from there if that step did not fail. -/
theorem leaves_bind_iff {work : Work σ α} {next : α → Work σ β}
    {post : Except ReadError β → σ → Prop} :
    (work >>= next).Leaves s post ↔
      work.Leaves s fun result middle =>
        match result with
        | .ok a => (next a).Leaves middle post
        | .error error => post (.error error) middle := by
  unfold Leaves
  rw [run_bind]
  cases (work.run s).result with
  | ok a => exact Iff.rfl
  | error error => exact Iff.rfl

/-- Two statements about consecutive steps are joined. -/
theorem Leaves.bind {work : Work σ α} {next : α → Work σ β} {post : Except ReadError β → σ → Prop}
    {middle : Except ReadError α → σ → Prop} (hfirst : work.Leaves s middle)
    (hok : ∀ a after, middle (.ok a) after → (next a).Leaves after post)
    (herror : ∀ error after, middle (.error error) after → post (.error error) after) :
    (work >>= next).Leaves s post := by
  rw [leaves_bind_iff]
  apply hfirst.mono
  intro result after hmiddle
  cases result with
  | ok a => exact hok a after hmiddle
  | error error => exact herror error after hmiddle

@[simp] theorem leaves_pure (a : α) :
    (pure a : Work σ α).Leaves s post ↔ post (.ok a) s := Iff.rfl

@[simp] theorem leaves_state {post : Except ReadError σ → σ → Prop} :
    (state : Work σ σ).Leaves s post ↔ post (.ok s) s := Iff.rfl

@[simp] theorem leaves_change {post : Except ReadError Unit → σ → Prop} (f : σ → σ) :
    (change f).Leaves s post ↔ post (.ok ()) (f s) := Iff.rfl

@[simp] theorem leaves_note {post : Except ReadError Unit → σ → Prop} (events : List Event) :
    (note events).Leaves s post ↔ post (.ok ()) s := Iff.rfl

@[simp] theorem leaves_fail (error : ReadError) :
    (fail error : Work σ α).Leaves s post ↔ post (.error error) s := Iff.rfl

@[simp] theorem leaves_ofExcept (value : Except ReadError α) :
    (ofExcept value : Work σ α).Leaves s post ↔ post value s := Iff.rfl

@[simp] theorem leaves_ofStorage (value : Except StorageFault α) :
    (ofStorage value : Work σ α).Leaves s post ↔ post (value.mapError .storage) s := Iff.rfl

@[simp] theorem leaves_ofFault (value : Except Fault α) :
    (ofFault value : Work σ α).Leaves s post ↔ post (value.mapError .fault) s := Iff.rfl

/-- Work on a part leaves the rest as it was. -/
theorem leaves_focus_iff {get : σ → τ} {set : τ → σ → σ} {work : Work τ α} :
    (focus get set work).Leaves s post ↔
      work.Leaves (get s) fun result part => post result (set part s) := Iff.rfl

end Snapshot.Work
