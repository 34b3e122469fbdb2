import Snapshot.Proofs.Session.Slots

/-!
# Every worker gets its turn

A call for any worker gets the first that is free, from the cursor on and round the set of slots,
and it waits only if all of them are held.  The cursor is moved by nothing but such calls, as long
as the pool is not filled again.

A step that asks for a worker or lets go of one is an event of the pool, and moves the cursor as the
event does (`Session.Steady.cursor_step`); no other step moves it
(`Session.Steady.cursor_step_of_nothing`).  So the workers are granted in turn in a session as they
are in a pool (`Session.InTurn.exists_granted`).
-/

namespace Snapshot.Session

variable {session : Session} {index : Nat} {slots : SlotSet} {found : Nat}

/-! ## Steps as events -/

/-- What happens to a pool in a step: somebody asks for a worker, or lets go of one. -/
inductive Brings (session : Session) (index : Nat) (step : Step) : Pool.Event → Prop
  | asks {selector : Selector} (hasks : session.asks step = some (index, selector)) :
    Brings session index step (.ask selector)
  | releases {slot : Slot} (hreleases : session.releases step = some (index, slot)) :
    Brings session index step (.giveBack slot)

/-- In a step, a call for any worker is granted the one with number `found`: a call that asks, or
the one that waits when a worker is let go of. -/
def GrantsAuto (session : Session) (index : Nat) (slots : SlotSet) (found : Nat) (step : Step) :
    Prop :=
  ∃ event, session.Brings index step event ∧ (session.pool index).GrantsAuto slots found event

/-- The step passes the worker over only if it is held: where a call for any worker is granted one,
this one was found free. -/
def Vacant (session : Session) (index : Nat) (slots : SlotSet) (patient : Nat) (step : Step) :
    Prop :=
  ∀ event, session.Brings index step event → (session.pool index).Vacant slots patient event

theorem asks_begin (hreader : session.reader = some index) (name : String) (selector : Selector)
    (call : Call) :
    session.asks (.begin name (.ok selector) call) = some (index, selector) := by
  unfold asks
  rw [hreader]
  rfl

/-- Nobody looks again but when a worker is let go of. -/
theorem Brings.about {step : Step} {event : Pool.Event} (h : session.Brings index step event)
    (slots : SlotSet) : event.About slots := by
  cases h with
  | asks hasks => trivial
  | releases hreleases => trivial

/-- The slots that were searched are those that the pool has always had. -/
theorem GrantsAuto.slots_eq {step : Step} {others : SlotSet}
    (h : session.GrantsAuto index others found step) (hone : (session.books index).OneSet slots) :
    others = slots := by
  obtain ⟨event, hbrings, hgranted⟩ := h
  exact hgranted.slots_eq hone (hbrings.about slots)

theorem GrantsAuto.lt_size {step : Step} (h : session.GrantsAuto index slots found step) :
    found < slots.size := by
  obtain ⟨event, -, hgranted⟩ := h
  exact hgranted.firstFree.lt_size

namespace Steady

variable (h : session.Steady) {step : Step}

include h

/-- **A step moves the cursor** of a pool as the event does that it brings. -/
theorem cursor_step {event : Pool.Event} (hbrings : session.Brings index step event) :
    (session.step step).1.cursor index = ((session.pool index).next event).cursor := by
  cases hbrings with
  | @asks selector hasks =>
      cases step with
      | begin name asked call =>
          cases asked with
          | error error => cases hasks
          | ok asked =>
              obtain ⟨pool, hreader, hsame⟩ := Option.map_eq_some_iff.mp hasks
              cases hsame
              obtain ⟨-, -, -, hcursor⟩ := h.begin_begun hreader name selector call
              rw [step_begin hreader, hcursor, Function.update_self]
              rfl
      | _ => cases hasks
  | @releases slot hreleases =>
      obtain ⟨name, rfl, hheld⟩ := eq_release_of_releases hreleases
      obtain ⟨-, -, hcursor⟩ := h.drop_dropped name index slot
      rw [step_release hheld, hcursor, Function.update_self]
      rfl

/-- The same step does not grant two workers. -/
theorem granted_unique {others : SlotSet} {other : Nat}
    (hgrants : session.GrantsAuto index slots found step)
    (hother : session.GrantsAuto index others other step) : found = other := by
  obtain ⟨event, hbrings, hgranted⟩ := hgrants
  obtain ⟨event', hbrings', hgranted'⟩ := hother
  have hcursor := (h.cursor_step hbrings).symm.trans (h.cursor_step hbrings')
  rw [hgranted.cursor_next, hgranted'.cursor_next] at hcursor
  exact Nat.succ.inj hcursor

/-- **Nothing else moves the cursor**, unless the pool is filled. -/
theorem cursor_step_of_nothing (hfills : session.fills step ≠ some index)
    (hnothing : ∀ event, ¬session.Brings index step event) :
    (session.step step).1.cursor index = session.cursor index := by
  cases hmoves : step.movesWorkers with
  | false =>
      have hidled := session.idled_step hmoves index
      unfold cursor
      generalize (session.step step).1.pool index = after at hidled ⊢
      cases hidled with
      | same workers => rfl
      | emptied => rfl
      | filled workers hfilled => exact absurd hfilled hfills
      | made hindex source =>
          rw [session.pool_of_length_le hindex]
          exact (untouched_makePool source).cursor_eq
  | true =>
      have hmoved := session.moved_step hmoves
      generalize session.step step = result at hmoved ⊢
      cases hmoved with
      | idle step reply => rfl
      | @asked pool hreader name selector call =>
          obtain ⟨-, -, -, hcursor⟩ := h.begin_begun hreader name selector call
          have hpool : index ≠ pool := by
            rintro rfl
            exact hnothing _ (.asks (asks_begin hreader name selector call))
          rw [hcursor, Function.update_of_ne hpool]
      | dismissed name worker => rfl
      | @dropped name pool slot hheld =>
          obtain ⟨-, -, hcursor⟩ := h.drop_dropped name pool slot
          have hpool : index ≠ pool := by
            rintro rfl
            exact hnothing _ (.releases (releases_release hheld))
          rw [hcursor, Function.update_of_ne hpool]

end Steady

/-! ## The order of the turns -/

/-- In the search for any worker of a pool, one comes before a rival. -/
structure InTurn (session : Session) (index : Nat) (slots : SlotSet) (patient rival : Nat) :
    Prop where
  steady : session.Steady
  inTurn : (session.pool index).InTurn slots patient rival

namespace InTurn

variable {patient rival : Nat}

/-- **After a grant**, every other worker comes before the one that was granted. -/
theorem of_granted (hsteady : session.Steady) (hone : (session.books index).OneSet slots)
    {step : Step} (halone : session.WaitsAlone step) (hnew : ¬session.Renews index step)
    (hgrants : session.GrantsAuto index slots rival step) (hpatient : patient < slots.size)
    (hne : patient ≠ rival) : (session.step step).1.InTurn index slots patient rival := by
  have hsize : slots.size ≠ 0 := Nat.ne_zero_of_lt hpatient
  obtain ⟨event, hbrings, hgranted⟩ := hgrants
  refine ⟨hsteady.step halone, ?_, ?_⟩
  · exact (hsteady.oneSet_step hone hnew).resolve_right fun hempty => hsize hempty.1
  · show slots.turn ((session.step step).1.cursor index) patient <
      slots.turn ((session.step step).1.cursor index) rival
    rw [hsteady.cursor_step hbrings]
    exact hgranted.turn_lt hpatient hne

variable (h : session.InTurn index slots patient rival) (hpatient : patient < slots.size)
  (hrival : rival < slots.size)

include h hpatient hrival

/-- A step that does not grant the worker does not grant the rival. -/
theorem not_granted {step : Step} (hvacant : session.Vacant index slots patient step)
    (hpassed : ¬session.GrantsAuto index slots patient step) :
    ¬session.GrantsAuto index slots rival step := by
  rintro ⟨event, hbrings, hgranted⟩
  have hpassedOver : ¬(session.pool index).GrantsAuto slots patient event :=
    fun hgrants => hpassed ⟨event, hbrings, hgrants⟩
  exact (h.inTurn.turn_next hpatient hrival (hbrings.about slots) (hvacant event hbrings)
    hpassedOver).1 hgranted

/-- **A worker that is free at its turn** is not passed over: a step that does not grant it leaves
the order of the two. -/
theorem step {step : Step} (halone : session.WaitsAlone step) (hnew : ¬session.Renews index step)
    (hvacant : session.Vacant index slots patient step)
    (hpassed : ¬session.GrantsAuto index slots patient step) :
    (session.step step).1.InTurn index slots patient rival := by
  have hsize : slots.size ≠ 0 := Nat.ne_zero_of_lt hpatient
  have hone : (session.books index).OneSet slots := h.inTurn.oneSet
  refine ⟨h.steady.step halone, ?_, ?_⟩
  · exact (h.steady.oneSet_step hone hnew).resolve_right fun hempty => hsize hempty.1
  · show slots.turn ((session.step step).1.cursor index) patient <
      slots.turn ((session.step step).1.cursor index) rival
    by_cases hbrings : ∃ event, session.Brings index step event
    · obtain ⟨event, hbrings⟩ := hbrings
      rw [h.steady.cursor_step hbrings]
      exact (h.inTurn.turn_next hpatient hrival (hbrings.about slots) (hvacant event hbrings)
        fun hgrants => hpassed ⟨event, hbrings, hgrants⟩).2
    · have hfills : session.fills step ≠ some index := by
        intro hfills
        exact hnew ⟨hfills, hone.number_eq ▸ hone.ready hsize⟩
      rw [h.steady.cursor_step_of_nothing hfills (not_exists.mp hbrings)]
      exact h.inTurn.turn_lt

/-- **Before the rival is granted**, the worker has been, if it was free at each grant. -/
theorem exists_granted {between : List Step} {last : Step}
    (halone : session.Along WaitsAlone (between ++ [last]))
    (hnew : session.Along (fun session step => ¬session.Renews index step) (between ++ [last]))
    (hvacant : session.Along (fun session => session.Vacant index slots patient)
      (between ++ [last]))
    (hlast : (session.after between).GrantsAuto index slots rival last) :
    ∃ earlier step later, between = earlier ++ step :: later ∧
      (session.after earlier).GrantsAuto index slots patient step := by
  -- On the run, for every session: a step that does not grant the worker keeps it in turn.
  induction between generalizing session with
  | nil =>
      by_cases hgrants : session.GrantsAuto index slots patient last
      · obtain rfl := h.steady.granted_unique hgrants hlast
        exact absurd h.inTurn.turn_lt (Nat.lt_irrefl _)
      · exact absurd hlast (h.not_granted hpatient hrival hvacant.1 hgrants)
  | cons step between ih =>
      by_cases hgrants : session.GrantsAuto index slots patient step
      · exact ⟨[], step, between, rfl, hgrants⟩
      · have hkept := h.step hpatient hrival halone.1 hnew.1 hvacant.1 hgrants
        obtain ⟨earlier, found, later, rfl, hfound⟩ := ih hkept halone.2 hnew.2 hvacant.2 hlast
        exact ⟨step :: earlier, found, later, rfl, hfound⟩

end InTurn

/-! ## Runs -/

/-- A call for any worker is served at once, by the first worker that is free, or it waits. -/
theorem begin_auto (hreader : session.reader = some index)
    (hsize : (session.pool index).slots.size ≠ 0) (name : String) (call : Call) :
    let pool := session.pool index
    let response := (session.step (.begin name (.ok .auto) call)).2
    (∃ found, pool.FirstFree pool.slots found ∧
      session.GrantsAuto index pool.slots found (.begin name (.ok .auto) call) ∧
      response.reply.isBlocked = false ∧ ∃ log, response.log = .workerAcquired found :: log) ∨
    ((∀ other < pool.slots.size, pool.isFree ⟨pool.slots.number, other⟩ = false) ∧
      response.reply = .blocked) := by
  intro pool response
  have hasked : (Pool.ask .auto).run pool = (Pool.serve ⟨pool.slots, none⟩).run pool :=
    (pool.ask_auto_run).trans (if_neg hsize)
  rw [pool.serve_run] at hasked
  have hresponse : response = (session.begin name .auto call index).2 :=
    congrArg Prod.snd (step_begin hreader name .auto call)
  unfold Session.begin atPool at hresponse
  cases hfind : pool.find? ⟨pool.slots, none⟩ with
  | none =>
      rw [hfind] at hasked
      rw [show (Pool.ask .auto).run (session.pool index) = _ from hasked] at hresponse
      refine .inr ⟨fun other hother => ?_, congrArg Response.reply hresponse⟩
      rw [← Bool.not_eq_true, Pool.isFree_iff, not_not]
      exact Pool.find?_eq_none_iff.mp hfind _ ⟨rfl, hother⟩
  | some found =>
      rw [hfind] at hasked
      rw [show (Pool.ask .auto).run (session.pool index) = _ from hasked] at hresponse
      refine .inl ⟨found, Pool.find?_any_eq_some_iff.mp hfind,
        ⟨_, .asks (asks_begin hreader name .auto call), .asked rfl ?_⟩, ?_, _,
        congrArg Response.log hresponse⟩
      · exact congrArg Outcome.result hasked
      · rw [hresponse]
        exact isBlocked_proceed ..

/-- **Any worker is a matter of turns.**  After every run, a call for any worker of a pool that has
slots is granted the first that is free, from the cursor on and round the set, and waits only if
all of them are held.  In a run in which the pool is not filled again, a worker that is free
whenever a call for any worker is served after another one was granted, up to the next time that
this other one is, has been granted to such a call in between.  In the pool itself, this is so
whatever it was like before, and however many callers wait. -/
theorem auto_takes_turns (index : Nat) :
    (∀ steps, (Session.start.after steps).reader = some index →
      let session := Session.start.after steps
      let pool := session.pool index
      pool.slots.size ≠ 0 → ∀ name call,
        let response := (session.step (.begin name (.ok .auto) call)).2
        (∃ found, pool.FirstFree pool.slots found ∧
          session.GrantsAuto index pool.slots found (.begin name (.ok .auto) call) ∧
          response.reply.isBlocked = false ∧ ∃ log, response.log = .workerAcquired found :: log) ∨
        ((∀ other < pool.slots.size, pool.isFree ⟨pool.slots.number, other⟩ = false) ∧
          response.reply = .blocked)) ∧
    (∀ before first between last, ∀ slots rival patient,
      Session.start.Along WaitsAlone (before ++ first :: (between ++ [last])) →
      Session.start.Along (fun session step => ¬session.Renews index step)
        (before ++ first :: (between ++ [last])) →
      let session := Session.start.after before
      let granted := (session.step first).1
      session.GrantsAuto index slots rival first →
      (granted.after between).GrantsAuto index slots rival last →
      patient < slots.size → patient ≠ rival →
      granted.Along (fun session => session.Vacant index slots patient) (between ++ [last]) →
      ∃ earlier step later, between = earlier ++ step :: later ∧
        (granted.after earlier).GrantsAuto index slots patient step) ∧
    ∀ (pool : Pool) first between last, ∀ slots rival patient,
      pool.books.OneSet slots → (∀ event ∈ first :: (between ++ [last]), event.About slots) →
      let granted := pool.next first
      pool.GrantsAuto slots rival first → (granted.follow between).GrantsAuto slots rival last →
      patient < slots.size → patient ≠ rival →
      granted.Along (fun pool => pool.Vacant slots patient) (between ++ [last]) →
      ∃ earlier event later, between = earlier ++ event :: later ∧
        (granted.follow earlier).GrantsAuto slots patient event := by
  refine ⟨fun steps hreader hsize name call => begin_auto hreader hsize name call, ?_, ?_⟩
  · intro before first between last slots rival patient halone hnew session granted hfirst hlast
      hpatient hne hvacant
    obtain ⟨haloneBefore, haloneFirst, haloneBetween⟩ := along_append.mp halone
    obtain ⟨hnewBefore, hnewFirst, hnewBetween⟩ := along_append.mp hnew
    have hsteady : session.Steady := steady_start.along haloneBefore
    obtain ⟨others, hone⟩ :=
      steady_start.oneSet_along ⟨_, oneSet_start index⟩ haloneBefore hnewBefore
    obtain rfl := hfirst.slots_eq hone
    have hinTurn := InTurn.of_granted hsteady hone haloneFirst hnewFirst hfirst hpatient hne
    exact hinTurn.exists_granted hpatient hfirst.lt_size haloneBetween hnewBetween hvacant hlast
  · intro pool first between last slots rival patient hone habout granted hfirst hlast hpatient hne
      hvacant
    exact Pool.exists_granted_between hone habout hfirst hlast hpatient hne hvacant

/-- Of three workers, the first is let go of, and the third is held by a call for any worker while
the second is held by a call for that one. -/
def turnSteps : List Step :=
  [.release "first", .begin "pinned" (.ok (.pinned 1)) .hold, .begin "second" (.ok .auto) .hold,
    .release "second", .release "pinned"]

/-- Of two workers, the first is given back, and the second is held and given back. -/
def turnEvents : List Pool.Event := [.giveBack ⟨1, 0⟩, .ask .auto, .giveBack ⟨1, 1⟩]

/-- The third worker is free in every step but the one that lets go of it, in which nobody waits. -/
theorem vacant_turnSteps :
    (Session.start.after [.newReader (.filled ⟨3, 64, true⟩),
      .begin "first" (.ok .auto) .hold]).Along (fun session => session.Vacant 0 ⟨1, 3⟩ 2)
        (turnSteps ++ [.begin "third" (.ok .auto) .hold]) := by
  have hfree : ∀ {session : Session} {step : Step}, (session.pool 0).isFree ⟨1, 2⟩ = true →
      session.Vacant 0 ⟨1, 3⟩ 2 step := fun hfree event _ => .of_free hfree
  have hletGo : ∀ {session : Session} {name : String}, (session.pool 0).waiting = none →
      session.Vacant 0 ⟨1, 3⟩ 2 (.release name) := by
    intro session name hwaiting event hbrings
    cases hbrings with
    | asks hasks => cases hasks
    | releases hreleases => exact .of_unwanted hwaiting
  exact ⟨hfree (by decide +kernel), hfree (by decide +kernel), hfree (by decide +kernel),
    hletGo (by decide +kernel), hfree (by decide +kernel), hfree (by decide +kernel), trivial⟩

theorem auto_takes_turns_turnSteps :
    let session := Session.start.after [.newReader (.filled ⟨3, 64, true⟩)]
    let pool := (Pool.ofSettings ⟨2, 64, true⟩).state
    (∃ found, (session.pool 0).FirstFree (session.pool 0).slots found) ∧
      (∃ earlier step later, turnSteps = earlier ++ step :: later ∧
        ((session.step (.begin "first" (.ok .auto) .hold)).1.after earlier).GrantsAuto 0 ⟨1, 3⟩ 2
          step) ∧
      ∃ earlier event later, turnEvents = earlier ++ event :: later ∧
        ((pool.next (.ask .auto)).follow earlier).GrantsAuto ⟨1, 2⟩ 1 event := by
  intro session pool
  obtain ⟨hserves, hturns, hevents⟩ := auto_takes_turns 0
  refine ⟨?_, ?_, ?_⟩
  · have hserved := hserves [.newReader (.filled ⟨3, 64, true⟩)] (by decide +kernel)
      (by decide +kernel) "first" .hold
    rcases hserved with ⟨found, hfirst, -⟩ | ⟨hheld, -⟩
    · exact ⟨found, hfirst⟩
    · have hfree : (session.pool 0).isFree ⟨(session.pool 0).slots.number, 0⟩ = true := by
        decide +kernel
      cases hfree.symm.trans (hheld 0 (by decide +kernel))
  · have hfirst : session.GrantsAuto 0 ⟨1, 3⟩ 0 (.begin "first" (.ok .auto) .hold) :=
      ⟨.ask .auto, .asks (by decide +kernel), .asked (by decide +kernel) (by decide +kernel)⟩
    exact hturns [.newReader (.filled ⟨3, 64, true⟩)] (.begin "first" (.ok .auto) .hold) turnSteps
      (.begin "third" (.ok .auto) .hold) ⟨1, 3⟩ 0 2 (by decide +kernel) (by decide +kernel) hfirst
      ⟨.ask .auto, .asks (by decide +kernel), .asked (by decide +kernel) (by decide +kernel)⟩
      (by decide) (by decide) vacant_turnSteps
  · have hvacant : (pool.next (.ask .auto)).Along (fun pool => pool.Vacant ⟨1, 2⟩ 1)
        (turnEvents ++ [.look ⟨⟨1, 2⟩, none⟩]) :=
      ⟨.of_free (by decide +kernel), .of_free (by decide +kernel),
        .of_unwanted (by decide +kernel), .of_free (by decide +kernel), trivial⟩
    exact hevents pool (.ask .auto) turnEvents (.look ⟨⟨1, 2⟩, none⟩) ⟨1, 2⟩ 0 1
      ⟨.inl (by decide +kernel), nofun, nofun⟩ (by decide +kernel)
      (.asked (by decide +kernel) (by decide +kernel)) (.looked (by decide +kernel)) (by decide)
      (by decide) hvacant

end Snapshot.Session
