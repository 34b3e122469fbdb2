import Mathlib.Data.List.Perm.Basic
import Snapshot.Proofs.Session.Stepped

/-!
# Every worker that is held is held once

In a run in which a name is never given away twice, the workers that a pool takes for held are those
that somebody holds under a name, each of them under one name (`Session.Guarded`).  Workers are told
apart by their set of slots and their number in it, so this is true of the workers of earlier sets
as well, as long as somebody holds them.
-/

namespace Snapshot

/-- The name that the step gives to a worker, now or when the call goes on. -/
def Step.givesName : Step → Option String
  | .begin name (.ok _) call => if call.keeps then some name else none
  | .newWorker name _ => some name
  | _ => none

/-- The name that a call which waits will hold its worker under. -/
def Pending.reserved (pending : Pending) : List String :=
  if pending.call.keeps then [pending.name] else []

/-- The workers of one pool among handles. -/
def guardedBy (index : Nat) (handles : List (String × Option (Nat × Slot))) : List Slot :=
  handles.filterMap fun handle =>
    match handle.2 with
    | some (pool, slot) => if pool = index then some slot else none
    | none => none

namespace Session

variable (session : Session)

/-- The names in use, that of the call that waits included if it wants one. -/
def names : List String :=
  session.handles.map Prod.fst ++ (session.pending.map Pending.reserved).getD []

/-- The workers of a pool that are held under names. -/
def guarded (index : Nat) : List Slot := guardedBy index session.handles

/-- No call is left to wait beside another, and no name is given away twice. -/
def Orderly (step : Step) : Prop :=
  session.WaitsAlone step ∧ ∀ name ∈ step.givesName, name ∉ session.names

instance (session : Session) (step : Step) : Decidable (session.Orderly step) :=
  inferInstanceAs (Decidable (_ ∧ _))

/-- Names are different, and the workers that a pool takes for held are held under names. -/
structure Guarded : Prop where
  names_nodup : session.names.Nodup
  held_perm : ∀ index, (session.guarded index).Perm (session.books index).held

theorem guarded_start : Session.start.Guarded where
  names_nodup := List.nodup_nil
  held_perm _ := .nil

/-! ## Handles -/

variable {session}

theorem names_handles : session.handles.map Prod.fst = session.holdings.map Prod.fst := by
  unfold handles
  rw [List.map_map]
  rfl

theorem handles_congr {after : Session} (hholdings : after.holdings = session.holdings) :
    after.handles = session.handles := by
  unfold handles
  rw [hholdings]

theorem handles_filter (name : String) :
    handles { session with holdings := session.holdings.filter fun entry => entry.1 ≠ name } =
      session.handles.filter fun handle => handle.1 ≠ name := by
  unfold handles
  rw [List.filter_map]
  rfl

theorem mem_handles {name : String} {holding : Holding}
    (hheld : session.holdings.lookup name = some holding) :
    (name, holding.slot?) ∈ session.handles :=
  List.mem_map.mpr ⟨(name, holding), mem_of_lookup_eq_some hheld, rfl⟩

theorem mem_guarded {name : String} {index : Nat} {slot : Slot}
    (hheld : session.holdings.lookup name = some (.pooled index slot)) :
    slot ∈ session.guarded index :=
  List.mem_filterMap.mpr ⟨_, mem_handles hheld, by simp [Holding.slot?]⟩

/-- The handle of a name comes on top of the others. -/
theorem perm_cons_filter {handles : List (String × Option (Nat × Slot))}
    (hnodup : (handles.map Prod.fst).Nodup) {handle : String × Option (Nat × Slot)}
    (hhandle : handle ∈ handles) :
    handles.Perm (handle :: handles.filter fun other => other.1 ≠ handle.1) := by
  have hothers : (handles.filter fun other => other.1 ≠ handle.1) = handles.erase handle := by
    rw [(hnodup.of_map Prod.fst).erase_eq_filter]
    apply List.filter_congr
    intro other hother
    have hsame : other.1 = handle.1 ↔ other = handle :=
      ⟨fun h => List.inj_on_of_nodup_map hnodup hother hhandle h, congrArg Prod.fst⟩
    simp [hsame, bne, beq_eq_decide]
  rw [hothers]
  exact List.perm_cons_erase hhandle

theorem perm_guardedBy_filter {handles : List (String × Option (Nat × Slot))}
    (hnodup : (handles.map Prod.fst).Nodup) {name : String} {slot : Option (Nat × Slot)}
    (hhandle : (name, slot) ∈ handles) (index : Nat) :
    (guardedBy index handles).Perm
      (guardedBy index ((name, slot) :: handles.filter fun handle => handle.1 ≠ name)) :=
  (perm_cons_filter hnodup hhandle).filterMap _

theorem guardedBy_cons_pooled (name : String) (index : Nat) (slot : Slot)
    (handles : List (String × Option (Nat × Slot))) :
    guardedBy index ((name, some (index, slot)) :: handles) = slot :: guardedBy index handles := by
  simp [guardedBy]

theorem guardedBy_cons_other {name : String} {index other : Nat} (hother : other ≠ index)
    (slot : Slot) (handles : List (String × Option (Nat × Slot))) :
    guardedBy other ((name, some (index, slot)) :: handles) = guardedBy other handles := by
  simp [guardedBy, hother.symm]

theorem guardedBy_cons_single (name : String) (index : Nat)
    (handles : List (String × Option (Nat × Slot))) :
    guardedBy index ((name, none) :: handles) = guardedBy index handles := by
  simp [guardedBy]

/-- The handles once a call has done what it does with its worker. -/
def handlesAfter (call : Call) (name : String) (slot : Option (Nat × Slot))
    (handles : List (String × Option (Nat × Slot))) : List (String × Option (Nat × Slot)) :=
  if call.keeps then (name, slot) :: handles else handles

theorem handles_holdingsAfter {after : Session} {call : Call} {name : String} {holding : Holding}
    (hholdings : after.holdings = call.holdingsAfter name holding session.holdings) :
    after.handles = handlesAfter call name holding.slot? session.handles := by
  unfold handles handlesAfter
  rw [hholdings]
  unfold Call.holdingsAfter
  split_ifs
  · rfl
  · rfl

/-! ## Locks -/

/-- The workers that the pools take for held are those among the handles. -/
def Guards (handles : List (String × Option (Nat × Slot))) (books : Nat → Books) : Prop :=
  ∀ index, (guardedBy index handles).Perm (books index).held

namespace Guards

variable {handles : List (String × Option (Nat × Slot))} {books : Nat → Books} {index : Nat}
  {new : Books}

theorem of_held_eq (h : Guards handles books) (hheld : new.held = (books index).held) :
    Guards handles (Function.update books index new) := by
  intro other
  by_cases hother : other = index
  · rw [hother, Function.update_self, hheld]
    exact h index
  · rw [Function.update_of_ne hother]
    exact h other

theorem handlesAfter_single (h : Guards handles books) (call : Call) (name : String) :
    Guards (handlesAfter call name none handles) books := by
  intro other
  unfold handlesAfter
  split_ifs
  · rw [guardedBy_cons_single]
    exact h other
  · exact h other

theorem handlesAfter_pooled (h : Guards handles books) {call : Call} {slot : Slot}
    (hheld : new.held = heldAfter call slot (books index).held) (name : String) :
    Guards (handlesAfter call name (some (index, slot)) handles)
      (Function.update books index new) := by
  unfold handlesAfter
  unfold heldAfter at hheld
  split_ifs at hheld ⊢
  · intro other
    by_cases hother : other = index
    · rw [hother, Function.update_self, hheld, guardedBy_cons_pooled]
      exact (h index).cons slot
    · rw [Function.update_of_ne hother, guardedBy_cons_other hother]
      exact h other
  · exact h.of_held_eq hheld

theorem filter_single (h : Guards handles books) (hnodup : (handles.map Prod.fst).Nodup)
    {name : String} (hhandle : (name, none) ∈ handles) :
    Guards (handles.filter fun handle => handle.1 ≠ name) books := by
  intro other
  have hperm := perm_guardedBy_filter hnodup hhandle other
  rw [guardedBy_cons_single] at hperm
  exact hperm.symm.trans (h other)

/-- Letting go of a worker frees that one and no other. -/
theorem filter_pooled (h : Guards handles books) (hnodup : (handles.map Prod.fst).Nodup)
    {name : String} {slot : Slot} (hhandle : (name, some (index, slot)) ∈ handles)
    (hheld : new.held = (books index).held.erase slot) :
    Guards (handles.filter fun handle => handle.1 ≠ name) (Function.update books index new) := by
  intro other
  have hperm := perm_guardedBy_filter hnodup hhandle other
  by_cases hother : other = index
  · subst hother
    rw [guardedBy_cons_pooled] at hperm
    have herased := (hperm.symm.trans (h other)).erase slot
    rwa [List.erase_cons_head, ← hheld, ← Function.update_self other new books] at herased
  · rw [guardedBy_cons_other hother] at hperm
    rw [Function.update_of_ne hother]
    exact hperm.symm.trans (h other)

end Guards

/-! ## Names -/

theorem nodup_filter_append {handles : List (String × Option (Nat × Slot))} {others : List String}
    (h : (handles.map Prod.fst ++ others).Nodup) (name : String) :
    ((handles.filter fun handle => handle.1 ≠ name).map Prod.fst ++ others).Nodup :=
  h.sublist ((List.filter_sublist.map Prod.fst).append_right others)

/-! ## Steps -/

namespace Guarded

theorem handles_nodup (h : session.Guarded) : (session.handles.map Prod.fst).Nodup :=
  h.names_nodup.of_append_left

/-- A call that asks for a worker takes a free one, if it takes one at all. -/
theorem of_begun (h : session.Guarded) {name : String} {selector : Selector} {call : Call}
    {index : Nat} {after : Session} {reply : Reply}
    (hbegun : Begun session name selector call index after reply)
    (halone : session.pending.isSome → reply.isBlocked = false)
    (hname : call.keeps = true → name ∉ session.names) : after.Guarded := by
  have hguards : Guards session.handles session.books := h.held_perm
  have hnames : ∀ {slot : Option (Nat × Slot)},
      after.handles = handlesAfter call name slot session.handles →
      after.pending = session.pending → after.names.Nodup := by
    intro slot hhandles hpending
    unfold names
    rw [hhandles, hpending, handlesAfter]
    split_ifs with hkeeps
    · exact List.nodup_cons.mpr ⟨hname hkeeps, h.names_nodup⟩
    · exact h.names_nodup
  cases hbegun with
  | refused hasked hbooks hholdings hpending hreply =>
      have hhandles := handles_congr hholdings
      refine ⟨?_, ?_⟩
      · unfold names
        rw [hhandles, hpending]
        exact h.names_nodup
      · unfold guarded
        rw [hhandles, hbooks]
        exact hguards
  | own worker hasked hbooks hholdings hpending hreply =>
      have hhandles := handles_holdingsAfter hholdings
      refine ⟨hnames hhandles hpending, ?_⟩
      unfold guarded
      rw [hhandles, hbooks]
      exact (hguards.handlesAfter_single call name).of_held_eq rfl
  | served hasked hset hfree hbooks hholdings hpending hreply =>
      have hhandles := handles_holdingsAfter hholdings
      refine ⟨hnames hhandles hpending, ?_⟩
      unfold guarded
      rw [hhandles, hbooks]
      exact hguards.handlesAfter_pooled rfl name
  | blocked hasked hclaims hheld hbooks hholdings hpending hreply =>
      -- Nobody waited before, so the name that is reserved now is the only one.
      have hnobody := pending_eq_none hreply halone
      have hhandles := handles_congr hholdings
      refine ⟨?_, ?_⟩
      · have hbefore := h.names_nodup
        unfold names at hname hbefore ⊢
        rw [hnobody] at hname hbefore
        rw [hhandles, hpending]
        simp only [Option.map_none, Option.getD_none, List.append_nil, Option.map_some,
          Option.getD_some, Pending.reserved] at hname hbefore ⊢
        split_ifs with hkeeps
        · rw [← List.concat_eq_append, List.nodup_concat]
          exact ⟨hname hkeeps, hbefore⟩
        · rwa [List.append_nil]
      · unfold guarded
        rw [hhandles, hbooks]
        exact hguards.of_held_eq rfl

/-- A worker that is let go of is free, or is held under the name of the call that waited. -/
theorem of_dropped (h : session.Guarded) {name : String} {index : Nat} {slot : Slot}
    (hheld : session.holdings.lookup name = some (.pooled index slot)) {after : Session}
    {woken : List Woken} (hdropped : Dropped session index slot
      (session.holdings.filter fun entry => entry.1 ≠ name) after woken) : after.Guarded := by
  have hguards : Guards session.handles session.books := h.held_perm
  have hhandle := mem_handles hheld
  have hrest := nodup_filter_append h.names_nodup name
  cases hdropped with
  | freed hunwanted hbooks hholdings hpending =>
      have hhandles : after.handles = session.handles.filter fun handle => handle.1 ≠ name :=
        (@handles_congr { session with holdings := _ } _ hholdings).trans (handles_filter name)
      refine ⟨?_, ?_⟩
      · unfold names
        rw [hhandles, hpending]
        exact hrest
      · unfold guarded
        rw [hhandles, hbooks]
        exact hguards.filter_pooled h.handles_nodup hhandle rfl
  | @passed claimant pending served hwaiting hadmits hpending hpool hbooks hholdings hnobody hname
      hlog hreply =>
      have hhandles := @handles_holdingsAfter { session with
        holdings := session.holdings.filter fun entry => entry.1 ≠ name } _ _ _ _ hholdings
      rw [handles_filter] at hhandles
      refine ⟨?_, ?_⟩
      · unfold names
        rw [hhandles, hnobody]
        rw [hpending] at hrest
        unfold handlesAfter
        simp only [Option.map_some, Option.getD_some, Pending.reserved, Option.map_none,
          Option.getD_none, List.append_nil] at hrest ⊢
        split_ifs at hrest ⊢
        · rw [← List.concat_eq_append, List.nodup_concat] at hrest
          exact List.nodup_cons.mpr hrest
        · rwa [List.append_nil] at hrest
      · unfold guarded
        rw [hhandles, hbooks]
        -- The worker is let go of first, and taken under the other name then.
        have hfree : ((session.pool index).without slot).books.held =
            (session.books index).held.erase slot := rfl
        have hfreed := hguards.filter_pooled h.handles_nodup hhandle hfree
        rw [← Function.update_idem ((session.pool index).without slot).books]
        refine hfreed.handlesAfter_pooled ?_ pending.name
        rw [Function.update_self]
        rfl

/-- **One step** of an orderly run takes no worker that is held, and frees none that is held under
another name. -/
theorem step (h : session.Guarded) (hsteady : session.Steady) {step : Step}
    (horderly : session.Orderly step) : (session.step step).1.Guarded := by
  obtain ⟨halone, hname⟩ := horderly
  unfold WaitsAlone at halone
  have hguards : Guards session.handles session.books := h.held_perm
  obtain ⟨hstepped, -⟩ := hsteady.stepped step
  generalize (session.step step).1 = after at hstepped ⊢
  generalize (session.step step).2 = response at hstepped halone
  cases hstepped with
  | @begun name selector call index after response hreader hbegun hwoken =>
      apply h.of_begun hbegun halone
      intro hkeeps
      exact hname name (by simp [Step.givesName, hkeeps])
  | dropped hheld hdropped => exact h.of_dropped hheld hdropped
  | @dismissed name worker response hheld hwoken =>
      refine ⟨?_, ?_⟩
      · unfold names
        rw [handles_filter]
        exact nodup_filter_append h.names_nodup name
      · unfold guarded
        rw [handles_filter]
        exact hguards.filter_single h.handles_nodup (mem_handles hheld)
  | @made name keepsFiles response hwoken =>
      refine ⟨List.nodup_cons.mpr ⟨hname name rfl, h.names_nodup⟩, ?_⟩
      intro index
      show (guardedBy index ((name, none) :: session.handles)).Perm _
      rw [guardedBy_cons_single]
      exact hguards index
  | other hasks hreleases index slots hnumber hbooks hhandles hpending hwoken =>
      have hsame := hhandles (names_handles ▸ h.handles_nodup)
      refine ⟨?_, ?_⟩
      · unfold names
        rw [hsame, hpending]
        exact h.names_nodup
      · unfold guarded
        rw [hsame, hbooks]
        exact hguards.of_held_eq rfl

end Guarded

end Session

end Snapshot
