import Snapshot.Proofs.Worker.Rotation

/-!
# Workers of a pool are granted in turn

What happens to a pool is told as a list of events.  Any number of callers may wait: each looks
again when it likes (`Pool.Event.look`).  The slots are not replaced, so all events are about the
same set of them (`Books.OneSet`).

The invariant is that a worker comes before another one in the search (`Pool.InTurn`).  It holds
once the other one was granted; an event that finds the worker free and grants a third one keeps it;
and while it holds, the other one is not granted.
-/

namespace Snapshot

/-! ## One set of slots -/

/-- The pool has had no slots but these.  They may have been taken away. -/
structure Books.OneSet (books : Books) (slots : SlotSet) : Prop where
  present : books.slots = slots ∨ books.slots = ⟨slots.number, 0⟩
  wanted : ∀ claimant, books.waiting = some claimant → claimant.slots = slots ∧ slots.size ≠ 0
  /-- The number of slots that were never there. -/
  ready : slots.size ≠ 0 → slots.number ≠ 0

theorem Books.OneSet.eq_of_size {books : Books} {slots : SlotSet} (h : books.OneSet slots)
    (hsize : books.slots.size ≠ 0) : books.slots = slots := by
  rcases h.present with hpresent | hpresent
  · exact hpresent
  · rw [hpresent] at hsize
    exact absurd rfl hsize

theorem Books.OneSet.number_eq {books : Books} {slots : SlotSet} (h : books.OneSet slots) :
    books.slots.number = slots.number := by
  rcases h.present with hpresent | hpresent
  · rw [hpresent]
  · rw [hpresent]

/-- The slots are the same, and whoever waits has waited before or has found these slots. -/
structure Books.Follows (before after : Books) : Prop where
  slots_eq : after.slots = before.slots
  waiting : ∀ claimant, after.waiting = some claimant →
    before.waiting = some claimant ∨ claimant.slots = before.slots ∧ claimant.slots.size ≠ 0

theorem Books.Follows.of_eq {before after : Books} (hslots : after.slots = before.slots)
    (hwaiting : after.waiting = before.waiting) : before.Follows after :=
  ⟨hslots, fun _ hwaits => .inl (hwaiting ▸ hwaits)⟩

theorem Books.OneSet.follow {before after : Books} {slots : SlotSet} (h : before.OneSet slots)
    (hfollows : before.Follows after) : after.OneSet slots := by
  refine ⟨?_, fun claimant hwaits => ?_, h.ready⟩
  · rw [hfollows.slots_eq]
    exact h.present
  · rcases hfollows.waiting claimant hwaits with hbefore | ⟨hfound, hsize⟩
    · exact h.wanted claimant hbefore
    · rw [hfound] at hsize
      rw [hfound, ← h.eq_of_size hsize]
      exact ⟨rfl, hsize⟩

/-- Taking the slots away does not bring others. -/
theorem Books.OneSet.emptied {books : Books} {slots : SlotSet} (h : books.OneSet slots) :
    Books.OneSet { books with slots := ⟨books.slots.number, 0⟩ } slots := by
  refine ⟨.inr ?_, h.wanted, h.ready⟩
  show (⟨books.slots.number, 0⟩ : SlotSet) = _
  rw [h.number_eq]

theorem Selector.Claims.size_ne_zero {slots : SlotSet} {selector : Selector} {claimant : Claimant}
    (h : selector.Claims slots claimant) : slots.size ≠ 0 := by
  cases h with
  | auto hsize => exact hsize
  | pinned hindex => exact Nat.ne_zero_of_lt hindex

namespace Pool

/-! ## Events -/

/-- What may happen to a pool without new slots. -/
inductive Event where
  | ask (selector : Selector)
  /-- A caller that was told to wait looks again for a worker of the slots that it found. -/
  | look (claimant : Claimant)
  | giveBack (slot : Slot)
  | empty

/-- Who looks again has found these slots. -/
def Event.About (slots : SlotSet) : Event → Prop
  | .look claimant => claimant.slots = slots
  | _ => True

instance (slots : SlotSet) : (event : Event) → Decidable (event.About slots)
  | .look claimant => inferInstanceAs (Decidable (claimant.slots = slots))
  | .ask _ | .giveBack _ | .empty => isTrue trivial

variable {pool : Pool} {slots : SlotSet} {found : Nat} {event : Event}

variable (pool)

/-- The pool after an event. -/
def next : Event → Pool
  | .ask selector => ((ask selector).run pool).state
  | .look claimant => ((serve claimant).run pool).state
  | .giveBack slot => ((giveBack slot).run pool).state
  | .empty => (empty.run pool).state

/-- The pool after a number of events. -/
def follow (events : List Event) : Pool := events.foldl next pool

/-- Every event is as stated of the pool that it meets. -/
def Along (admits : Pool → Event → Prop) : Pool → List Event → Prop
  | _, [] => True
  | pool, event :: events => admits pool event ∧ Along admits (pool.next event) events

/-- The pool as a search in an event finds it: a worker that is given back is free by then. -/
def scanned : Event → Pool
  | .giveBack slot => pool.without slot
  | _ => pool

/-- The event grants a caller for any worker the one with number `found`: a caller that asks, one
that looks again, or the one that waits for the next worker that is given back. -/
inductive GrantsAuto (slots : SlotSet) (found : Nat) : Event → Prop
  | asked (hslots : pool.slots = slots)
    (hasked : ((ask .auto).run pool).result = .ok (.pooled ⟨slots.number, found⟩)) :
    GrantsAuto slots found (.ask .auto)
  | looked
    (hserved : ((serve ⟨slots, none⟩).run pool).result = .ok (.pooled ⟨slots.number, found⟩)) :
    GrantsAuto slots found (.look ⟨slots, none⟩)
  | woken {slot : Slot} (hwaiting : pool.waiting = some ⟨slots, none⟩)
    (hwoken : ((giveBack slot).run pool).result = .ok (some ⟨slots.number, found⟩)) :
    GrantsAuto slots found (.giveBack slot)

/-- The event passes the worker over only if it is held: where a caller for any worker is granted
one, this one was found free. -/
def Vacant (slots : SlotSet) (patient : Nat) (event : Event) : Prop :=
  ∀ found, pool.GrantsAuto slots found event →
    (pool.scanned event).isFree ⟨slots.number, patient⟩ = true

theorem cursor_scanned (event : Event) : (pool.scanned event).cursor = pool.cursor := by
  cases event <;> rfl

/-- A claimant that is served for any worker moves the cursor. -/
theorem serve_cursor (claimant : Claimant) :
    ((serve claimant).run pool).state.cursor =
      match claimant.index, pool.find? claimant with
      | none, some index => index + 1
      | _, _ => pool.cursor := by
  rw [pool.serve_run]
  obtain ⟨slots, wanted⟩ := claimant
  cases pool.find? ⟨slots, wanted⟩ with
  | none => cases wanted <;> rfl
  | some index => cases wanted <;> rfl

variable {pool}

/-- A worker that nobody holds is not passed over. -/
theorem Vacant.of_free {patient : Nat} (hfree : pool.isFree ⟨slots.number, patient⟩ = true) :
    pool.Vacant slots patient event := by
  intro found _
  cases event with
  | giveBack slot =>
      rw [isFree_iff] at hfree ⊢
      exact fun hheld => hfree (List.mem_of_mem_erase hheld)
  | ask selector | look claimant | empty => exact hfree

/-- Nobody is granted a worker that is given back while nobody waits. -/
theorem Vacant.of_unwanted {patient : Nat} {slot : Slot} (hwaiting : pool.waiting = none) :
    pool.Vacant slots patient (.giveBack slot) := by
  intro found hgrants
  cases hgrants with
  | woken hwaits hwoken => cases hwaiting.symm.trans hwaits

namespace GrantsAuto

/-- **What is granted** is the first worker that the search finds free. -/
theorem firstFree (h : pool.GrantsAuto slots found event) :
    (pool.scanned event).FirstFree slots found := by
  rw [← find?_any_eq_some_iff]
  cases h with
  | asked hslots hasked =>
      subst hslots
      exact (find?_of_ask hasked).2.2
  | looked hserved =>
      rw [pool.serve_run] at hserved
      show pool.find? ⟨slots, none⟩ = some found
      cases hfind : pool.find? ⟨slots, none⟩ with
      | none =>
          rw [hfind] at hserved
          cases hserved
      | some other =>
          rw [hfind] at hserved
          cases hserved
          rfl
  | @woken slot hwaiting hwoken =>
      rw [giveBack_run] at hwoken
      have hwaits : (pool.without slot).waiting = some ⟨slots, none⟩ := hwaiting
      obtain ⟨other, hsame, hfind⟩ := find?_of_wake hwaits (Except.ok.inj hwoken)
      cases hsame
      exact hfind

/-- The slots that were searched are those that the pool has always had. -/
theorem slots_eq {others : SlotSet} (h : pool.GrantsAuto others found event)
    (hone : pool.books.OneSet slots) (habout : event.About slots) : others = slots := by
  cases h with
  | asked hslots hasked =>
      subst hslots
      exact hone.eq_of_size (find?_of_ask hasked).1
  | looked hserved => exact habout
  | woken hwaiting hwoken => exact (hone.wanted _ hwaiting).1

/-- Who is granted any worker leaves the cursor behind it. -/
theorem cursor_next (h : pool.GrantsAuto slots found event) :
    (pool.next event).cursor = found + 1 := by
  have hfind := find?_any_eq_some_iff.mpr h.firstFree
  cases h with
  | asked hslots hasked =>
      have hask := pool.ask_cursor .auto
      unfold Work.Leaves at hask
      rw [hasked] at hask
      exact hask
  | looked hserved =>
      show ((serve ⟨slots, none⟩).run pool).state.cursor = _
      rw [pool.serve_cursor, show pool.find? ⟨slots, none⟩ = some found from hfind]
  | @woken slot hwaiting hwoken =>
      show ((giveBack slot).run pool).state.cursor = _
      rw [giveBack_run] at hwoken ⊢
      have hwaits : (pool.without slot).waiting = some ⟨slots, none⟩ := hwaiting
      rw [wake_cursor, hwaits, Except.ok.inj hwoken]

/-- The same event does not grant two workers. -/
theorem unique {others : SlotSet} {other : Nat} (h : pool.GrantsAuto slots found event)
    (hother : pool.GrantsAuto others other event) : found = other :=
  Nat.succ.inj (h.cursor_next.symm.trans hother.cursor_next)

end GrantsAuto

/-- **Nothing else moves the cursor.** -/
theorem cursor_next_of_not_granted
    (hnobody : ∀ slots found, ¬pool.GrantsAuto slots found event) :
    (pool.next event).cursor = pool.cursor := by
  cases event with
  | ask selector =>
      have hask := pool.ask_cursor selector
      unfold Work.Leaves at hask
      refine hask.trans ?_
      split
      · rename_i slot hasked
        obtain ⟨-, hset, -⟩ := find?_of_ask hasked
        refine absurd (.asked rfl ?_) (hnobody pool.slots slot.index)
        rw [hasked, ← hset]
      · rfl
  | look claimant =>
      refine (pool.serve_cursor claimant).trans ?_
      split
      · rename_i index hany hfind
        obtain ⟨slots, wanted⟩ := claimant
        obtain rfl : wanted = none := hany
        refine absurd (.looked ?_) (hnobody slots index)
        rw [pool.serve_run, hfind]
      · rfl
  | giveBack slot =>
      show ((giveBack slot).run pool).state.cursor = _
      rw [giveBack_run, wake_cursor]
      split
      · rename_i slots granted hwaiting hwoken
        obtain ⟨other, rfl, -⟩ := find?_of_wake hwaiting hwoken
        exact absurd (.woken hwaiting (congrArg Except.ok hwoken)) (hnobody slots other)
      · rfl
  | empty =>
      have hempty := pool.empty_does
      unfold Work.Leaves at hempty
      show (empty.run pool).state.cursor = _
      rw [hempty]

/-- **An event brings no other slots.** -/
theorem oneSet_next (hone : pool.books.OneSet slots) (hsize : slots.size ≠ 0)
    (habout : event.About slots) : (pool.next event).books.OneSet slots := by
  cases event with
  | ask selector =>
      show (ask selector).Leaves pool fun _ after => after.books.OneSet slots
      apply (pool.ask_asked selector).mono
      intro _ after hasked
      cases hasked with
      | refused error => exact hone
      | own hown => exact hone.follow (.of_eq rfl rfl)
      | served hclaims hfound => exact hone.follow (.of_eq rfl rfl)
      | @blocked claimant hclaims hnone =>
          refine hone.follow ⟨rfl, fun found hwaits => .inr ?_⟩
          cases hwaits
          rw [hclaims.slots_eq]
          exact ⟨rfl, hclaims.size_ne_zero⟩
  | look claimant =>
      show ((serve claimant).run pool).state.books.OneSet slots
      rw [pool.serve_run]
      cases pool.find? claimant with
      | some index => exact hone.follow (.of_eq rfl rfl)
      | none =>
          refine ⟨hone.present, fun found hwaits => ?_, hone.ready⟩
          cases hwaits
          exact ⟨habout, hsize⟩
  | giveBack slot =>
      show ((giveBack slot).run pool).state.books.OneSet slots
      rw [giveBack_run]
      unfold wake
      split
      · exact hone.follow (.of_eq rfl rfl)
      · split
        · exact hone.follow (.of_eq rfl rfl)
        · exact hone.follow ⟨rfl, nofun⟩
  | empty =>
      show empty.Leaves pool fun _ after => after.books.OneSet slots
      apply pool.empty_does.mono
      rintro _ _ rfl
      exact hone.emptied

/-! ## The order of the turns -/

variable {patient rival : Nat}

/-- In the search for any worker, one comes before a rival.  The pool has had no slots but these. -/
structure InTurn (pool : Pool) (slots : SlotSet) (patient rival : Nat) : Prop where
  oneSet : pool.books.OneSet slots
  turn_lt : slots.turn pool.cursor patient < slots.turn pool.cursor rival

/-- **After a grant**, every other worker comes before the one that was granted. -/
theorem GrantsAuto.turn_lt (h : pool.GrantsAuto slots rival event) (hpatient : patient < slots.size)
    (hne : patient ≠ rival) :
    slots.turn (pool.next event).cursor patient < slots.turn (pool.next event).cursor rival := by
  rw [h.cursor_next]
  exact SlotSet.turn_succ_self h.firstFree.lt_size hpatient hne

namespace InTurn

variable (h : pool.InTurn slots patient rival) (hpatient : patient < slots.size)
  (hrival : rival < slots.size)

include h hpatient hrival

/-- **A worker that is free at its turn** is not passed over: an event that does not grant it does
not grant the rival either, and leaves the order of the two. -/
theorem turn_next (habout : event.About slots) (hvacant : pool.Vacant slots patient event)
    (hpassed : ¬pool.GrantsAuto slots patient event) :
    ¬pool.GrantsAuto slots rival event ∧
      slots.turn (pool.next event).cursor patient < slots.turn (pool.next event).cursor rival := by
  by_cases hgrants : ∃ found, pool.GrantsAuto slots found event
  · obtain ⟨found, hgrants⟩ := hgrants
    have hne : found ≠ patient := by
      rintro rfl
      exact hpassed hgrants
    have hturn := h.turn_lt
    rw [← pool.cursor_scanned event] at hturn
    obtain ⟨hother, hlater⟩ := hgrants.firstFree.turn_succ_lt hpatient hrival
      (hvacant found hgrants) hne hturn
    refine ⟨fun hgrantsRival => hother (hgrants.unique hgrantsRival), ?_⟩
    rwa [hgrants.cursor_next]
  · have hnobody : ∀ others found, ¬pool.GrantsAuto others found event := by
      intro others found hfound
      obtain rfl := hfound.slots_eq h.oneSet habout
      exact hgrants ⟨found, hfound⟩
    refine ⟨hnobody slots rival, ?_⟩
    rw [cursor_next_of_not_granted hnobody]
    exact h.turn_lt

/-- **Before the rival is granted**, the worker has been, if it was free at each grant. -/
theorem exists_granted {between : List Event} {last : Event}
    (habout : ∀ event ∈ between ++ [last], event.About slots)
    (hvacant : pool.Along (fun pool => pool.Vacant slots patient) (between ++ [last]))
    (hlast : (pool.follow between).GrantsAuto slots rival last) :
    ∃ earlier event later, between = earlier ++ event :: later ∧
      (pool.follow earlier).GrantsAuto slots patient event := by
  have hsize : slots.size ≠ 0 := Nat.ne_zero_of_lt hpatient
  -- On the events, for every pool: one that does not grant the worker keeps it in turn.
  induction between generalizing pool with
  | nil =>
      by_cases hgrants : pool.GrantsAuto slots patient last
      · obtain rfl := hgrants.unique hlast
        exact absurd h.turn_lt (Nat.lt_irrefl _)
      · have hlooks := habout last (List.mem_singleton_self last)
        exact absurd hlast (h.turn_next hpatient hrival hlooks hvacant.1 hgrants).1
  | cons event between ih =>
      have hlooks := habout event List.mem_cons_self
      by_cases hgrants : pool.GrantsAuto slots patient event
      · exact ⟨[], event, between, rfl, hgrants⟩
      · have hkept : (pool.next event).InTurn slots patient rival :=
          ⟨oneSet_next h.oneSet hsize hlooks,
            (h.turn_next hpatient hrival hlooks hvacant.1 hgrants).2⟩
        have haboutLater : ∀ other ∈ between ++ [last], other.About slots :=
          fun other hother => habout other (List.mem_cons_of_mem event hother)
        obtain ⟨earlier, found, later, rfl, hfound⟩ := ih hkept haboutLater hvacant.2 hlast
        exact ⟨event :: earlier, found, later, rfl, hfound⟩

end InTurn

/-- **Between two grants of a worker**, every other one that was found free at each grant has been
granted, whatever the pool was like before and however many callers there are. -/
theorem exists_granted_between {first last : Event} {between : List Event}
    (hone : pool.books.OneSet slots)
    (habout : ∀ event ∈ first :: (between ++ [last]), event.About slots)
    (hfirst : pool.GrantsAuto slots rival first)
    (hlast : (pool.follow (first :: between)).GrantsAuto slots rival last)
    (hpatient : patient < slots.size) (hne : patient ≠ rival)
    (hvacant : (pool.next first).Along (fun pool => pool.Vacant slots patient)
      (between ++ [last])) :
    ∃ earlier event later, between = earlier ++ event :: later ∧
      (pool.follow (first :: earlier)).GrantsAuto slots patient event := by
  have hsize : slots.size ≠ 0 := Nat.ne_zero_of_lt hpatient
  have hinTurn : (pool.next first).InTurn slots patient rival :=
    ⟨oneSet_next hone hsize (habout first List.mem_cons_self), hfirst.turn_lt hpatient hne⟩
  exact hinTurn.exists_granted hpatient hfirst.firstFree.lt_size
    (fun event hevent => habout event (List.mem_cons_of_mem first hevent)) hvacant hlast

end Pool

end Snapshot
