import Snapshot.Proofs.Read.Delivery
import Snapshot.Proofs.Worker.Pool
import Snapshot.Session.Step

/-!
# Every worker of a session stays sound

`Session.Sound` says of every worker of a session, in a pool or held outside of
one, that the file at hand has the identity of the entry which is read.  No step
breaks this (`Session.Sound.step`), whatever becomes of the files: an identity
names an entry for good, and steps that change files touch no worker.  It
therefore holds after every run (`Session.sound_after`).
-/

namespace Snapshot

open Work

/-! ## Runs -/

namespace Session

/-- The session after a list of steps. -/
def after (session : Session) (steps : List Step) : Session :=
  steps.foldl (fun session step => (session.step step).1) session

end Session

/-- The step only tells what there is. -/
def Step.tells : Step → Bool
  | .readHeader _ | .showPool | .showScratch _ | .showPath _ => true
  | _ => false

/-- A step that only tells something leaves the session alone. -/
theorem Session.step_of_tells (session : Session) {step : Step} (htells : step.tells = true) :
    (session.step step).1 = session := by
  cases step with
  | readHeader path => exact (readHeader_leaves session.directory path session).2
  | showPool =>
      dsimp only [Session.step, Session.withReader]
      cases session.reader with
      | none => rfl
      | some index => rfl
  | showScratch name | showPath name =>
      dsimp only [Session.step, Session.withHolding]
      cases session.holdings.lookup name with
      | none => rfl
      | some holding => rfl
  | _ => cases htells

/-! ## What a call does with its worker -/

/-- What a read answers, by the directory and the request alone. -/
def Call.outcome (directory : Directory) : Call → Option Reply
  | .hold => none
  | .readInto path text buffer =>
    let outcome := readOutcome directory path text buffer
    some (.readInto outcome.1 outcome.2)
  | .readBatch path texts buffers =>
    let outcome := batchOutcome directory path texts buffers
    some (.readBatch outcome.1 outcome.2)

namespace Session

/-- A read whose work is known ends with a sound worker and the reply for what is known. -/
theorem runRead_eq {σ : Type} {work : Work σ Unit} {desk : σ} {worker : σ → Worker}
    {reply : Except ReadError Unit → σ → Reply} {expected : Reply}
    (hwork : work.Leaves desk fun result after =>
      (worker after).Sound ∧ reply result after = expected) :
    (runRead work desk worker reply).reply = expected ∧
      (runRead work desk worker reply).worker.Sound :=
  ⟨hwork.2, Worker.endRead_leaves hwork.1⟩

/-- **A call with a sound worker** does what its outcome says, and leaves the worker sound. -/
theorem perform_eq {worker : Worker} (hsound : worker.Sound) (directory : Directory) (call : Call) :
    (perform directory worker call).map ReadResult.reply = call.outcome directory ∧
      ∀ read, perform directory worker call = some read → read.worker.Sound := by
  cases call with
  | hold =>
      refine ⟨rfl, ?_⟩
      intro read hread
      cases hread
  | readInto path text buffer =>
      have hread := runRead_eq ((readInto_leaves hsound directory path text buffer).mono
        fun result after h => ⟨h.1, congrArg (fun pair => Reply.readInto pair.1 pair.2) h.2⟩)
      refine ⟨congrArg some hread.1, ?_⟩
      intro read hsome
      cases hsome
      exact hread.2
  | readBatch path texts buffers =>
      have hread := runRead_eq ((readBatch_leaves hsound directory path texts buffers).mono
        fun result after h => ⟨h.1, congrArg (fun pair => Reply.readBatch pair.1 pair.2) h.2⟩)
      refine ⟨congrArg some hread.1, ?_⟩
      intro read hsome
      cases hsome
      exact hread.2

/-! ## Sound sessions -/

/-- All workers of the session are sound. -/
structure Sound (session : Session) : Prop where
  pools : ∀ pool ∈ session.pools, pool.Sound
  singles : ∀ name worker, (name, Holding.single worker) ∈ session.holdings → worker.Sound

theorem sound_start : Session.start.Sound where
  pools _ h := absurd h List.not_mem_nil
  singles _ _ h := absurd h List.not_mem_nil

namespace Sound

variable {session : Session} (h : session.Sound)

include h

theorem pool (index : Nat) : (session.pool index).Sound := by
  unfold Session.pool
  rw [List.getD_eq_getElem?_getD]
  cases hpool : session.pools[index]? with
  | none => exact Pool.sound_unready _
  | some pool => exact h.pools pool (List.mem_of_getElem? hpool)

theorem putPool (index : Nat) {pool : Pool} (hpool : pool.Sound) :
    (session.putPool index pool).Sound where
  pools other hother := by
    rcases List.mem_or_eq_of_mem_set hother with hother | rfl
    · exact h.pools other hother
    · exact hpool
  singles := h.singles

theorem workerOf {name : String} {holding : Holding}
    (hheld : session.holdings.lookup name = some holding) : (session.workerOf holding).Sound := by
  cases holding with
  | pooled index slot => exact (h.pool index).worker slot
  | single worker => exact h.singles name worker (mem_of_lookup_eq_some hheld)

/-- Work on a pool that does not touch its workers. -/
theorem atPool {α : Type} (index : Nat) {work : Work Pool α}
    (hwork : work.Leaves (session.pool index) fun _ after =>
      after.workers = (session.pool index).workers) : (session.atPool index work).state.Sound :=
  h.putPool index ((h.pool index).of_workers hwork)

/-- Work of a held worker that keeps it sound. -/
theorem atWorker {α : Type} (name : String) (holding : Holding) {work : Work Worker α}
    (hwork : work.Leaves (session.workerOf holding) fun _ after => after.Sound) :
    (session.atWorker name holding work).state.Sound := by
  cases holding with
  | pooled index slot => exact h.putPool index ((h.pool index).putWorker slot hwork)
  | single worker =>
      refine ⟨h.pools, fun other found hfound => ?_⟩
      obtain ⟨entry, hentry, hrename⟩ := List.mem_map.mp hfound
      split_ifs at hrename
      · cases hrename
        exact hwork
      · rw [hrename] at hentry
        exact h.singles other found hentry

theorem hold {name : String} {holding : Holding}
    (hholding : ∀ worker, holding = .single worker → worker.Sound) :
    Sound { session with holdings := (name, holding) :: session.holdings } where
  pools := h.pools
  singles other worker hworker := by
    rcases List.mem_cons.mp hworker with hnew | hold
    · cases hnew
      exact hholding worker rfl
    · exact h.singles other worker hold

/-! ## Calls -/

theorem giveBack (index : Nat) (slot : Slot) : (session.giveBack index slot).state.Sound :=
  h.atPool index (Pool.giveBack_leaves _ slot)

theorem proceed (name : String) (index : Nat) (slot : Slot) (call : Call) :
    (session.proceed name index slot call).session.Sound := by
  have hcall := (perform_eq ((h.pool index).worker slot) session.directory call).2
  unfold Session.proceed
  dsimp only
  cases hperform : perform session.directory ((session.pool index).worker slot) call with
  | none =>
      apply h.hold
      intro worker hheld
      cases hheld
  | some read =>
      -- The worker is put back before its slot is free again.
      exact (h.putPool index ((h.pool index).putWorker slot (hcall read hperform))).giveBack index slot

theorem proceedOwn (name : String) {worker : Worker} (hworker : worker.Sound) (call : Call) :
    (session.proceedOwn name worker call).session.Sound := by
  unfold Session.proceedOwn
  cases perform session.directory worker call with
  | none =>
      apply h.hold
      intro other hheld
      cases hheld
      exact hworker
  | some read => exact h

theorem resume (woken : Option Slot) : (session.resume woken).1.Sound := by
  unfold Session.resume
  cases woken with
  | none => exact h
  | some slot =>
      cases session.pending with
      | none => exact h
      | some pending =>
          have hidle : Sound { session with pending := none } := ⟨h.pools, h.singles⟩
          exact hidle.proceed pending.name pending.pool slot pending.call

theorem begin (name : String) (selector : Selector) (call : Call) (index : Nat) :
    (session.begin name selector call index).1.Sound := by
  have hasked := h.atPool index (Pool.ask_leaves _ selector)
  unfold Session.begin
  dsimp only
  cases (session.atPool index (Pool.ask selector)).result with
  | error error => exact hasked
  | ok answer =>
      cases answer with
      | blocked => exact ⟨hasked.pools, hasked.singles⟩
      | own => exact hasked.proceedOwn name (Worker.sound_fresh _) call
      | pooled slot => exact (hasked.proceed name index slot call).resume _

theorem drop (name : String) (holding : Holding) : (session.drop name holding).1.Sound := by
  have hwithout : Sound { session with
      holdings := session.holdings.filter fun entry => entry.1 ≠ name } :=
    ⟨h.pools, fun other worker hheld => h.singles other worker (List.mem_filter.mp hheld).1⟩
  cases holding with
  | single worker => exact hwithout
  | pooled index slot => exact (hwithout.giveBack index slot).resume _

/-! ## Steps -/

theorem newReader (source : PoolSource) : (session.newReader source).1.Sound := by
  have hmade : (makePool source).state.Sound := by
    cases source with
    | filled settings => exact Pool.sound_ofSettings settings
    | unready settings => exact Pool.sound_unready settings
  unfold Session.newReader
  dsimp only
  cases (makePool source).result with
  | error error => exact h
  | ok u =>
      refine ⟨fun pool hpool => ?_, h.singles⟩
      rcases List.mem_append.mp hpool with hold | hnew
      · exact h.pools pool hold
      · rw [List.mem_singleton.mp hnew]
        exact hmade

theorem withReader {step : Nat → Session × Response} (hstep : ∀ index, (step index).1.Sound) :
    (session.withReader step).1.Sound := by
  unfold Session.withReader
  cases session.reader with
  | none => exact h
  | some index => exact hstep index

theorem withHolding {name : String} {step : Holding → Session × Response}
    (hstep : ∀ holding, session.holdings.lookup name = some holding → (step holding).1.Sound) :
    (session.withHolding name step).1.Sound := by
  unfold Session.withHolding
  cases hheld : session.holdings.lookup name with
  | none => exact h
  | some holding => exact hstep holding hheld

theorem workerStep {α : Type} (name : String) {work : Work Worker α} (reply : α → Reply)
    (hwork : ∀ worker : Worker, worker.Sound → work.Leaves worker fun _ after => after.Sound) :
    (session.workerStep name work reply).1.Sound :=
  h.withHolding fun holding hheld => h.atWorker name holding (hwork _ (h.workerOf hheld))

/-- **One step** keeps every worker sound. -/
theorem step (step : Step) : (session.step step).1.Sound := by
  cases step with
  | write path contents | replace path contents | remove path => exact ⟨h.pools, h.singles⟩
  | newReader source => exact h.newReader source
  | refill workers =>
      exact h.withReader fun index => h.atPool index
        ((Pool.refill_reslots _ workers).mono fun _ _ hslots => hslots.workers_eq)
  | emptyPool =>
      exact h.withReader fun index => h.atPool index
        ((Pool.empty_reslots _).mono fun _ _ hslots => hslots.workers_eq)
  | readHeader path | showPool | showScratch name | showPath name =>
      rw [step_of_tells session rfl]
      exact h
  | begin name selector call =>
      cases selector with
      | error error => exact h
      | ok selector => exact h.withReader (h.begin name selector call)
  | newWorker name keepsFiles =>
      apply h.hold
      intro worker hheld
      cases hheld
      exact Worker.sound_fresh keepsFiles
  | release name => exact h.withHolding fun holding _ => h.drop name holding
  | openPath name path =>
      exact h.workerStep name _ fun worker hworker =>
        (Worker.openPath_leaves hworker session.directory path).mono fun _ _ hopens =>
          hopens.sound hworker
  | workerHeader name =>
      exact h.workerStep name _ fun worker hworker =>
        (Worker.readHeader_leaves session.directory worker).mono fun _ _ hread =>
          hread.2.sound hworker
  | readBytes name start length =>
      exact h.workerStep name _ fun worker hworker =>
        (Worker.readBytes_leaves session.directory start length worker).mono fun _ _ hread =>
          hread.2.1.sound hworker
  | finish name => exact h.workerStep name _ fun worker hworker => Worker.endRead_leaves hworker
  | close name =>
      exact h.workerStep name _ fun worker _ =>
        (Worker.letGo_leaves worker).mono fun _ _ hgone => Worker.sound_of_none hgone.2.2

theorem after (steps : List Step) : (session.after steps).Sound := by
  induction steps generalizing session with
  | nil => exact h
  | cons step steps ih => exact ih (h.step step)

end Sound

/-- After every run, every worker is sound. -/
theorem sound_after (steps : List Step) : (Session.start.after steps).Sound :=
  sound_start.after steps

end Session

end Snapshot
