import Snapshot.Proofs.Session.Sound
import Snapshot.Proofs.Session.Steady

/-!
# The steps of a steady session

Every step of a steady session asks for a worker, or lets go of one, or makes a worker outside the
pools, or changes nothing but the slots of a pool (`Session.Stepped`).  So whatever is said about
the books, the holdings and the call that waits is shown for these kinds of steps.

A session stays steady as long as no call is left to wait beside another (`Session.Steady.along`).
-/

namespace Snapshot

/-- The worker of a pool, if it is one. -/
def Holding.slot? : Holding → Option (Nat × Slot)
  | .pooled index slot => some (index, slot)
  | .single _ => none

namespace Session

variable {session : Session}

/-! ## Every step -/

/-- The pool that a step asks for a worker, and what for. -/
def asks (session : Session) : Step → Option (Nat × Selector)
  | .begin _ (.ok selector) _ => session.reader.map fun index => (index, selector)
  | _ => none

/-- The worker of a pool that is let go of in a step. -/
def releases (session : Session) : Step → Option (Nat × Slot)
  | .release name => (session.holdings.lookup name).bind Holding.slot?
  | _ => none

theorem releases_release {name : String} {index : Nat} {slot : Slot}
    (hheld : session.holdings.lookup name = some (.pooled index slot)) :
    session.releases (.release name) = some (index, slot) := by
  simp [releases, hheld, Holding.slot?]

theorem eq_release_of_releases {step : Step} {index : Nat} {slot : Slot}
    (hreleases : session.releases step = some (index, slot)) :
    ∃ name, step = .release name ∧ session.holdings.lookup name = some (.pooled index slot) := by
  cases step with
  | release name =>
      refine ⟨name, rfl, ?_⟩
      obtain ⟨holding, hheld, hslot⟩ := Option.bind_eq_some_iff.mp hreleases
      cases holding with
      | pooled pool other =>
          cases hslot
          exact hheld
      | single worker => cases hslot
  | _ => cases hreleases

/-- The names in use, and the workers of pools that they stand for. -/
def handles (session : Session) : List (String × Option (Nat × Slot)) :=
  session.holdings.map fun entry => (entry.1, entry.2.slot?)

/-- What comes of a step. -/
inductive Stepped (session : Session) : Step → Session → Response → Prop
  | begun {name : String} {selector : Selector} {call : Call} {index : Nat} {after : Session}
    {response : Response} (hreader : session.reader = some index)
    (hbegun : Begun session name selector call index after response.reply)
    (hwoken : response.woken = []) :
    Stepped session (.begin name (.ok selector) call) after response
  | dropped {name : String} {index : Nat} {slot : Slot} {after : Session} {response : Response}
    (hheld : session.holdings.lookup name = some (.pooled index slot))
    (hdropped : Dropped session index slot (session.holdings.filter fun entry => entry.1 ≠ name)
      after response.woken) :
    Stepped session (.release name) after response
  /-- A worker outside the pools is let go of. -/
  | dismissed {name : String} {worker : Worker} {response : Response}
    (hheld : session.holdings.lookup name = some (.single worker)) (hwoken : response.woken = []) :
    Stepped session (.release name)
      { session with holdings := session.holdings.filter fun entry => entry.1 ≠ name } response
  /-- A worker outside the pools is made. -/
  | made {name : String} {keepsFiles : Bool} {response : Response} (hwoken : response.woken = []) :
    Stepped session (.newWorker name keepsFiles)
      { session with holdings := (name, .single (.fresh keepsFiles)) :: session.holdings } response
  /-- Nothing but the slots of a pool may be others.  A worker outside the pools takes its new state
  under its name, which must not be that of another one. -/
  | other {step : Step} {after : Session} {response : Response} (hasks : session.asks step = none)
    (hreleases : session.releases step = none) (index : Nat) (slots : SlotSet)
    (hnumber : (session.books index).slots.number ≤ slots.number)
    (hbooks : after.books =
      Function.update session.books index { session.books index with slots := slots })
    (hhandles : (session.holdings.map Prod.fst).Nodup → after.handles = session.handles)
    (hpending : after.pending = session.pending) (hwoken : response.woken = []) :
    Stepped session step after response

/-- The step leaves the books, the handles and the call that waits as they are. -/
theorem Stepped.still {step : Step} (hasks : session.asks step = none)
    (hreleases : session.releases step = none) {after : Session} {response : Response}
    (hbooks : after.books = session.books)
    (hhandles : (session.holdings.map Prod.fst).Nodup → after.handles = session.handles)
    (hpending : after.pending = session.pending) (hwoken : response.woken = []) :
    Stepped session step after response := by
  apply Stepped.other hasks hreleases 0 (session.books 0).slots (Nat.le_refl _) _ hhandles hpending
    hwoken
  rw [hbooks]
  exact (Function.update_eq_self 0 session.books).symm

/-- The state of a worker outside the pools is replaced under its name alone. -/
theorem handles_rename {name : String} {worker : Worker} (after : Worker)
    (hnames : (session.holdings.map Prod.fst).Nodup)
    (hheld : session.holdings.lookup name = some (.single worker)) :
    handles { session with
      holdings := session.holdings.map fun entry =>
        if entry.1 = name then (name, Holding.single after) else entry } = session.handles := by
  unfold handles
  rw [List.map_map]
  apply List.map_congr_left
  intro entry hentry
  by_cases hname : entry.1 = name
  · have hsame : entry = (name, .single worker) :=
      List.inj_on_of_nodup_map hnames hentry (mem_of_lookup_eq_some hheld) hname
    simp [hsame, Holding.slot?]
  · simp [hname]

theorem workerStep_stepped (hknown : session.ReaderKnown) {step : Step}
    (hasks : session.asks step = none) (hreleases : session.releases step = none) {α : Type}
    (name : String) (work : Work Worker α) (reply : α → Reply) :
    Stepped session step (session.workerStep name work reply).1
        (session.workerStep name work reply).2 ∧
      (session.workerStep name work reply).1.ReaderKnown := by
  unfold workerStep withHolding
  cases hheld : session.holdings.lookup name with
  | none => exact ⟨.still hasks hreleases rfl (fun _ => rfl) rfl rfl, hknown⟩
  | some holding =>
      cases holding with
      | pooled index slot =>
          exact ⟨.still hasks hreleases (books_putPool_of_eq rfl) (fun _ => rfl) rfl rfl,
            hknown.putPool index _⟩
      | single worker =>
          exact ⟨.still hasks hreleases rfl (fun hnames => handles_rename _ hnames hheld) rfl rfl,
            hknown⟩

/-- A new pool comes after the others. -/
theorem pool_append (pool : Pool) (reader : Option Nat) :
    Session.pool { session with pools := session.pools ++ [pool], reader := reader } =
      Function.update session.pool session.pools.length pool := by
  funext other
  unfold Session.pool
  rw [List.getD_eq_getElem?_getD]
  rcases Nat.lt_trichotomy other session.pools.length with hother | rfl | hother
  · rw [Function.update_of_ne (Nat.ne_of_lt hother), List.getElem?_append_left hother,
      List.getD_eq_getElem?_getD]
  · rw [Function.update_self, List.getElem?_concat_length, Option.getD_some]
  · rw [Function.update_of_ne (Nat.ne_of_gt hother), List.getD_eq_getElem?_getD,
      List.getElem?_eq_none (by simp; omega), List.getElem?_eq_none (Nat.le_of_lt hother)]

/-- Nobody has or wants a worker of a new pool. -/
theorem books_append {pool : Pool} {slots : SlotSet}
    (hpool : pool.books = ⟨slots, [], none, 0, 0, 0⟩) (reader : Option Nat) :
    books { session with pools := session.pools ++ [pool], reader := reader } =
      Function.update session.books session.pools.length
        { session.books session.pools.length with slots := slots } := by
  rw [books_of_length_le (Nat.le_refl session.pools.length), ← hpool]
  funext other
  unfold books
  rw [pool_append]
  exact Function.apply_update (fun _ => Pool.books) session.pool session.pools.length pool other

theorem newReader_stepped (hknown : session.ReaderKnown) (source : PoolSource) :
    Stepped session (.newReader source) (session.newReader source).1 (session.newReader source).2 ∧
      (session.newReader source).1.ReaderKnown := by
  have hmade : ∃ slots, (makePool source).state.books = ⟨slots, [], none, 0, 0, 0⟩ := by
    cases source with
    | filled settings => exact Pool.books_ofSettings settings
    | unready settings => exact ⟨_, Pool.books_unready settings⟩
  obtain ⟨slots, hslots⟩ := hmade
  unfold newReader
  dsimp only
  cases (makePool source).result with
  | error error => exact ⟨.still rfl rfl rfl (fun _ => rfl) rfl rfl, hknown⟩
  | ok u =>
      have hnumber : (session.books session.pools.length).slots.number ≤ slots.number := by
        rw [books_of_length_le (Nat.le_refl _)]
        exact Nat.zero_le _
      refine ⟨.other rfl rfl _ slots hnumber (books_append hslots _) (fun _ => rfl) rfl rfl, ?_⟩
      intro index hreader
      cases hreader
      simp

/-- A step that puts other slots into the pool of the reader. -/
theorem reslot_stepped (hknown : session.ReaderKnown) {step : Step}
    (hasks : session.asks step = none) (hreleases : session.releases step = none)
    {work : Work Pool Unit}
    (hwork : ∀ pool : Pool, work.Leaves pool fun _ after => pool.Reslots after) :
    Stepped session step
        (session.withReader fun index => respond (fun _ => .done) (session.atPool index work)).1
        (session.withReader fun index => respond (fun _ => .done) (session.atPool index work)).2 ∧
      ReaderKnown
        (session.withReader fun index =>
          respond (fun _ => .done) (session.atPool index work)).1 := by
  unfold withReader
  cases hreader : session.reader with
  | none => exact ⟨.still hasks hreleases rfl (fun _ => rfl) rfl rfl, hknown⟩
  | some index =>
      obtain ⟨slots, cursor, hnumber, hslots⟩ := hwork (session.pool index)
      refine ⟨.other hasks hreleases index slots hnumber ?_ (fun _ => rfl) rfl rfl,
        hknown.putPool index _⟩
      exact (books_putPool (hknown index hreader) _).trans
        (congrArg (fun pool => Function.update session.books index pool.books) hslots)

/-- **Every step** of a steady session is of one of these kinds. -/
theorem Steady.stepped (h : session.Steady) (step : Step) :
    Stepped session step (session.step step).1 (session.step step).2 ∧
      (session.step step).1.ReaderKnown := by
  have hidle : ∀ {response : Response}, session.asks step = none → session.releases step = none →
      response.woken = [] → Stepped session step session response ∧ session.ReaderKnown :=
    fun hasks hreleases hwoken =>
      ⟨.still hasks hreleases rfl (fun _ => rfl) rfl hwoken, h.readerKnown⟩
  cases step with
  | write path contents | replace path contents | remove path =>
      exact ⟨.still rfl rfl rfl (fun _ => rfl) rfl rfl, h.readerKnown⟩
  | readHeader path | showPool | showScratch name | showPath name =>
      rw [step_of_tells session rfl]
      exact hidle rfl rfl (woken_eq_nil session rfl)
  | newReader source => exact newReader_stepped h.readerKnown source
  | refill workers =>
      exact reslot_stepped h.readerKnown rfl rfl fun pool => pool.refill_reslots workers
  | emptyPool => exact reslot_stepped h.readerKnown rfl rfl fun pool => pool.empty_reslots
  | begin name selector call =>
      cases selector with
      | error error => exact hidle rfl rfl rfl
      | ok selector =>
          dsimp only [Session.step, withReader]
          cases hreader : session.reader with
          | none =>
              refine hidle ?_ rfl rfl
              simp [asks, hreader]
          | some index =>
              obtain ⟨hbegun, hsame, hwoken, -⟩ := h.begin_begun hreader name selector call
              exact ⟨.begun hreader hbegun hwoken, hsame.readerKnown h.readerKnown⟩
  | newWorker name keepsFiles => exact ⟨.made rfl, h.readerKnown⟩
  | release name =>
      dsimp only [Session.step, withHolding]
      cases hheld : session.holdings.lookup name with
      | none =>
          refine hidle rfl ?_ rfl
          simp [releases, hheld]
      | some holding =>
          cases holding with
          | single worker => exact ⟨.dismissed hheld rfl, h.readerKnown⟩
          | pooled index slot =>
              obtain ⟨hdropped, hsame, -⟩ := h.drop_dropped name index slot
              exact ⟨.dropped hheld hdropped, hsame.readerKnown h.readerKnown⟩
  | openPath name path | workerHeader name | readBytes name start length | finish name
  | close name =>
      exact workerStep_stepped h.readerKnown rfl rfl name _ _

/-! ## Steady for good -/

variable (session) in
/-- No call is left to wait beside another. -/
def WaitsAlone (step : Step) : Prop :=
  session.pending.isSome → (session.step step).2.reply.isBlocked = false

instance (session : Session) (step : Step) : Decidable (session.WaitsAlone step) :=
  inferInstanceAs (Decidable (_ → _))

/-- A worker that was free may be held, or be free again. -/
theorem consistent_heldAfter {slots : SlotSet} {slot : Slot} {held : List Slot}
    {waiting : Option Claimant} {acquisitions waits ownWorkers : Nat}
    (h : Books.Consistent ⟨slots, held, waiting, acquisitions, waits, ownWorkers⟩)
    (hfree : slot ∉ held) (hset : slot.set ≤ slots.number) (call : Call) :
    Books.Consistent
      ⟨slots, heldAfter call slot held, waiting, acquisitions, waits, ownWorkers⟩ := by
  unfold heldAfter
  split_ifs
  · refine ⟨List.nodup_cons.mpr ⟨hfree, h.held_nodup⟩, ?_, ?_⟩
    · intro other hother
      rcases List.mem_cons.mp hother with rfl | hother
      · exact hset
      · exact h.set_le other hother
    · intro claimant hwaiting other hadmits
      exact List.mem_cons_of_mem _ (h.blocked claimant hwaiting other hadmits)
  · exact h

namespace Steady

variable (h : session.Steady)

include h

/-- One pool keeps other books, and whoever waits there or elsewhere is the call that waits. -/
theorem of_books {after : Session} (hknown : after.ReaderKnown) {index : Nat} {books : Books}
    (hbooks : after.books = Function.update session.books index books)
    (hconsistent : books.Consistent)
    (hwaiting : books.waiting.isSome ↔
      ∃ pending, after.pending = some pending ∧ pending.pool = index)
    (hothers : ∀ other, other ≠ index → ((session.books other).waiting.isSome ↔
      ∃ pending, after.pending = some pending ∧ pending.pool = other)) : after.Steady := by
  refine ⟨hknown, fun other => ?_, fun other => ?_⟩
  · rw [hbooks]
    by_cases hother : other = index
    · rw [hother, Function.update_self]
      exact hconsistent
    · rw [Function.update_of_ne hother]
      exact h.consistent other
  · rw [hbooks]
    by_cases hother : other = index
    · rw [hother, Function.update_self]
      exact hwaiting
    · rw [Function.update_of_ne hother]
      exact hothers other hother

/-- One pool keeps other books, and who waits for what is the same. -/
theorem of_update {after : Session} (hknown : after.ReaderKnown) {index : Nat} {books : Books}
    (hbooks : after.books = Function.update session.books index books)
    (hconsistent : books.Consistent) (hwaiting : books.waiting = (session.books index).waiting)
    (hpending : after.pending = session.pending) : after.Steady := by
  apply h.of_books hknown hbooks hconsistent
  · rw [hwaiting, hpending]
    exact h.waiting_iff index
  · intro other _
    rw [hpending]
    exact h.waiting_iff other

/-- A call that asks for a worker and does not wait beside another leaves a steady session. -/
theorem of_begun {name : String} {selector : Selector} {call : Call} {index : Nat}
    {after : Session} {reply : Reply} (hknown : after.ReaderKnown)
    (hbegun : Begun session name selector call index after reply)
    (halone : session.pending.isSome → reply.isBlocked = false) : after.Steady := by
  have hbefore := h.consistent index
  cases hbegun with
  | refused hasked hbooks hholdings hpending hreply =>
      refine h.of_update hknown ?_ hbefore rfl hpending
      rw [hbooks, Function.update_eq_self]
  | own worker hasked hbooks hholdings hpending hreply =>
      exact h.of_update hknown hbooks ⟨hbefore.held_nodup, hbefore.set_le, hbefore.blocked⟩ rfl
        hpending
  | @served slot hasked hset hfree hbooks hholdings hpending hreply =>
      apply h.of_update hknown hbooks _ rfl hpending
      refine consistent_heldAfter ?_ hfree (Nat.le_of_eq hset) call
      exact ⟨hbefore.held_nodup, hbefore.set_le, hbefore.blocked⟩
  | @blocked claimant hasked hclaims hheld hbooks hholdings hpending hreply =>
      have hnobody := pending_eq_none hreply halone
      refine h.of_books hknown hbooks ⟨hbefore.held_nodup, hbefore.set_le, ?_⟩ ?_ ?_
      · intro found hfound
        cases hfound
        exact hheld
      · exact iff_of_true rfl ⟨_, hpending, rfl⟩
      · intro other hother
        rw [h.waiting_iff other, hnobody, hpending]
        simp [Ne.symm hother]

/-- A worker that is let go of leaves a steady session. -/
theorem of_dropped {index : Nat} {slot : Slot} {rest : List (String × Holding)} {after : Session}
    {woken : List Woken} (hknown : after.ReaderKnown)
    (hdropped : Dropped session index slot rest after woken) : after.Steady := by
  have hbefore := h.consistent index
  have herased : ∀ other ∈ (session.books index).held.erase slot,
      other.set ≤ (session.books index).slots.number :=
    fun other hother => hbefore.set_le other (List.mem_of_mem_erase hother)
  cases hdropped with
  | freed hunwanted hbooks hholdings hpending =>
      exact h.of_update hknown hbooks
        ⟨hbefore.held_nodup.erase slot, herased, hbefore.blocked.erase hunwanted⟩ rfl hpending
  | @passed claimant pending served hwaiting hadmits hpending hpool hbooks hholdings hnobody hname
      hlog hreply =>
      apply h.of_books hknown hbooks
      · refine consistent_heldAfter ?_ hbefore.held_nodup.not_mem_erase
          (hbefore.set_le slot (hbefore.blocked claimant hwaiting slot hadmits)) pending.call
        refine ⟨hbefore.held_nodup.erase slot, herased, ?_⟩
        intro other hnothing
        cases hnothing
      · simp [hnobody]
      · intro other hother
        rw [h.waiting_iff other, hnobody, hpending]
        simp [hpool, Ne.symm hother]

/-- **One step** leaves a steady session, unless a call is left to wait beside another. -/
theorem step {step : Step} (halone : session.WaitsAlone step) : (session.step step).1.Steady := by
  obtain ⟨hstepped, hknown⟩ := h.stepped step
  unfold WaitsAlone at halone
  generalize (session.step step).1 = after at hstepped hknown ⊢
  generalize (session.step step).2 = response at hstepped halone
  cases hstepped with
  | begun hreader hbegun hwoken => exact h.of_begun hknown hbegun halone
  | dropped hheld hdropped => exact h.of_dropped hknown hdropped
  | dismissed hheld hwoken | made hwoken => exact ⟨h.readerKnown, h.consistent, h.waiting_iff⟩
  | other hasks hreleases index slots hnumber hbooks hhandles hpending hwoken =>
      have hbefore := h.consistent index
      refine h.of_update hknown hbooks ⟨hbefore.held_nodup, ?_, hbefore.blocked⟩ rfl hpending
      exact fun slot hslot => Nat.le_trans (hbefore.set_le slot hslot) hnumber

end Steady

/-! ## Runs -/

/-- Every step of a run is as stated in the session that it meets. -/
def Along (admits : Session → Step → Prop) : Session → List Step → Prop
  | _, [] => True
  | session, step :: steps => admits session step ∧ Along admits (session.step step).1 steps

instance decidableAlong (admits : Session → Step → Prop)
    [∀ session step, Decidable (admits session step)] :
    ∀ (session : Session) (steps : List Step), Decidable (session.Along admits steps)
  | _, [] => isTrue trivial
  | session, step :: steps =>
    haveI := decidableAlong admits (session.step step).1 steps
    inferInstanceAs (Decidable (_ ∧ _))

theorem along_append {admits : Session → Step → Prop} {steps others : List Step} :
    session.Along admits (steps ++ others) ↔
      session.Along admits steps ∧ (session.after steps).Along admits others := by
  induction steps generalizing session with
  | nil => exact ⟨fun h => ⟨trivial, h⟩, And.right⟩
  | cons step steps ih => exact (and_congr_right fun _ => ih).trans and_assoc.symm

/-- What a step keeps, under what is true of every step, is so after every run. -/
theorem Along.after {admits : Session → Step → Prop} {holds : Session → Prop}
    (hstep : ∀ session step, holds session → admits session step → holds (session.step step).1)
    {steps : List Step} (hsteps : session.Along admits steps) (h : holds session) :
    holds (session.after steps) := by
  induction steps generalizing session with
  | nil => exact h
  | cons step steps ih => exact ih hsteps.2 (hstep session step h hsteps.1)

theorem Steady.along {steps : List Step} (h : session.Steady)
    (hsteps : session.Along WaitsAlone steps) : (session.after steps).Steady :=
  hsteps.after (fun _ _ hsteady halone => hsteady.step halone) h

end Session

end Snapshot
