import Snapshot.Session.Basic

/-!
# The steps of a session

`Session.step` is a total function: every step is answered, and a call that has
to wait is answered by saying so.  What a call does once it has a worker is the
same whether it waited or not (`Session.proceed`).  A read gives its worker back
at its end, also when it failed.
-/

namespace Snapshot.Session

variable (session : Session)

/-! ## Pools and workers -/

/-- A pool of the session. -/
def pool (index : Nat) : Pool :=
  session.pools.getD index (.unready .standard)

/-- The session with one pool replaced. -/
def putPool (index : Nat) (pool : Pool) : Session :=
  { session with pools := session.pools.set index pool }

/-- Work on one of the pools. -/
def atPool {α : Type} (index : Nat) (work : Work Pool α) : Outcome Session α :=
  let outcome := work.run (session.pool index)
  ⟨outcome.result, session.putPool index outcome.state, outcome.log⟩

/-- The state of a held worker. -/
def workerOf : Holding → Worker
  | .pooled index slot => (session.pool index).worker slot
  | .single worker => worker

/-- Work of the worker that is held under a name. -/
def atWorker {α : Type} (name : String) (holding : Holding) (work : Work Worker α) :
    Outcome Session α :=
  let outcome := work.run (session.workerOf holding)
  let next := match holding with
    | .pooled index slot =>
      session.putPool index ((session.pool index).putWorker slot outcome.state)
    | .single _ =>
      let rename (entry : String × Holding) :=
        if entry.1 = name then (name, Holding.single outcome.state) else entry
      { session with holdings := session.holdings.map rename }
  ⟨outcome.result, next, outcome.log⟩

/-! ## Calls that have a worker -/

/-- What a read leaves behind. -/
structure ReadResult where
  reply : Reply
  worker : Worker
  log : List Event

/-- A read with a given worker, up to letting go of the file. -/
def runRead {σ : Type} (work : Work σ Unit) (desk : σ) (worker : σ → Worker)
    (reply : Except ReadError Unit → σ → Reply) : ReadResult :=
  let outcome := work.run desk
  let ending := Worker.endRead.run (worker outcome.state)
  ⟨reply outcome.result outcome.state, ending.state, outcome.log ++ ending.log⟩

/-- What a call does with its worker, none for a call that keeps it. -/
def perform (directory : Directory) (worker : Worker) : Call → Option ReadResult
  | .hold => none
  | .readInto path text buffer =>
    some (runRead (Snapshot.readInto directory path text) ⟨worker, buffer⟩ Desk.worker
      fun result desk => .readInto result desk.buffer)
  | .readBatch path texts buffers =>
    some (runRead (Snapshot.readBatch directory path texts) ⟨worker, buffers⟩ Tray.worker
      fun result tray => .readBatch result tray.buffers)

/-- The outcome of a call that has a worker: the session after it, what it
answers and logs, and the worker that a waiting call gets in turn. -/
structure Progress where
  session : Session
  reply : Reply
  log : List Event
  woken : Option Slot

/-- Gives a worker of a pool back. -/
def giveBack (index : Nat) (slot : Slot) : Outcome Session (Option Slot) :=
  session.atPool index (Pool.giveBack slot)

/-- The worker that a released worker made room for. -/
def wokenBy {σ : Type} (outcome : Outcome σ (Option Slot)) : Option Slot :=
  match outcome.result with
  | .ok woken => woken
  | .error _ => none

/-- A call goes on with a worker of a pool. -/
def proceed (name : String) (index : Nat) (slot : Slot) (call : Call) : Progress :=
  let pool := session.pool index
  match perform session.directory (pool.worker slot) call with
  | none =>
    { session := { session with holdings := (name, .pooled index slot) :: session.holdings }
      reply := .held (some slot.index)
      log := []
      woken := none }
  | some read =>
    let used := session.putPool index (pool.putWorker slot read.worker)
    let released := used.giveBack index slot
    { session := released.state
      reply := read.reply
      log := read.log ++ released.log
      woken := wokenBy released }

/-- A call goes on with a worker outside the pool. -/
def proceedOwn (name : String) (worker : Worker) (call : Call) : Progress :=
  match perform session.directory worker call with
  | none =>
    { session := { session with holdings := (name, .single worker) :: session.holdings }
      reply := .held none
      log := []
      woken := none }
  | some read => ⟨session, read.reply, read.log, none⟩

/-- The waiting call goes on with the worker that it got. -/
def resume (woken : Option Slot) : Session × List Woken :=
  match woken, session.pending with
  | some slot, some pending =>
    let progress :=
      { session with pending := none }.proceed pending.name pending.pool slot pending.call
    (progress.session,
      [⟨pending.name, progress.reply, .workerAcquired slot.index :: progress.log⟩])
  | _, _ => (session, [])

/-- A call asks for a worker and goes on if it gets one. -/
def begin (name : String) (selector : Selector) (call : Call) (index : Nat) :
    Session × Response :=
  let asked := session.atPool index (Pool.ask selector)
  match asked.result with
  | .error error => (asked.state, ⟨call.refused error, asked.log, []⟩)
  | .ok .blocked =>
    ({ asked.state with pending := some ⟨name, index, call⟩ }, ⟨.blocked, asked.log, []⟩)
  | .ok .own =>
    let progress := asked.state.proceedOwn name (session.pool index).newWorker call
    (progress.session, ⟨progress.reply, asked.log ++ progress.log, []⟩)
  | .ok (.pooled slot) =>
    let progress := asked.state.proceed name index slot call
    let (next, woken) := progress.session.resume progress.woken
    (next, ⟨progress.reply, asked.log ++ progress.log, woken⟩)

/-- A held worker is given up. -/
def drop (name : String) (holding : Holding) : Session × Response :=
  let rest := session.holdings.filter fun entry => entry.1 ≠ name
  let without := { session with holdings := rest }
  match holding with
  | .single _ => (without, ⟨.done, [], []⟩)
  | .pooled index slot =>
    let released := without.giveBack index slot
    let (next, woken) := released.state.resume (wokenBy released)
    (next, ⟨.done, released.log, woken⟩)

/-! ## Steps -/

/-- The answer for an outcome. -/
def respond {α : Type} (reply : α → Reply) (outcome : Outcome Session α) : Session × Response :=
  let answer := match outcome.result with
    | .ok a => reply a
    | .error error => .failed error
  (outcome.state, ⟨answer, outcome.log, []⟩)

/-- An answer without anything logged. -/
def answer (reply : Reply) : Session × Response :=
  (session, ⟨reply, [], []⟩)

/-- A step that needs a reader. -/
def withReader (step : Nat → Session × Response) : Session × Response :=
  match session.reader with
  | some index => step index
  | none => session.answer .noReader

/-- A step that needs the worker held under a name. -/
def withHolding (name : String) (step : Holding → Session × Response) : Session × Response :=
  match session.holdings.lookup name with
  | some holding => step holding
  | none => session.answer .noSuchName

/-- Work of the worker held under a name. -/
def workerStep {α : Type} (name : String) (work : Work Worker α) (reply : α → Reply) :
    Session × Response :=
  session.withHolding name fun holding => respond reply (session.atWorker name holding work)

/-- The pool that a new reader gets. -/
def makePool : PoolSource → Outcome Pool Unit
  | .filled settings => Pool.ofSettings settings
  | .unready settings => ⟨.ok (), .unready settings, []⟩

/-- A new reader, if its pool can be made; otherwise the old one stays. -/
def newReader (source : PoolSource) : Session × Response :=
  let made := makePool source
  match made.result with
  | .error error => (session, ⟨.failed error, made.log, []⟩)
  | .ok () =>
    ({ session with
        pools := session.pools ++ [made.state]
        reader := some session.pools.length },
      ⟨.madeReader made.state, made.log, []⟩)

/-- One step of a session. -/
def step : Step → Session × Response
  | .write path contents =>
    { session with directory := session.directory.write path contents }.answer .done
  | .replace path contents =>
    { session with directory := session.directory.replace path contents }.answer .done
  | .remove path => { session with directory := session.directory.remove path }.answer .done
  | .newReader source => session.newReader source
  | .refill workers =>
    session.withReader fun index =>
      respond (fun _ => .done) (session.atPool index (Pool.refill workers))
  | .emptyPool =>
    session.withReader fun index => respond (fun _ => .done) (session.atPool index Pool.empty)
  | .showPool => session.withReader fun index => session.answer (.pool (session.pool index))
  | .readHeader path => respond .header ((Snapshot.readHeader session.directory path).run session)
  | .begin name selector call =>
    match selector with
    | .error error => session.answer (call.refused error)
    | .ok selector => session.withReader (session.begin name selector call)
  | .newWorker name keepsFiles =>
    let holding := Holding.single (.fresh keepsFiles)
    { session with holdings := (name, holding) :: session.holdings }.answer .madeWorker
  | .release name => session.withHolding name (session.drop name)
  | .openPath name path =>
    session.workerStep name (Worker.openPath session.directory path) fun _ => .done
  | .workerHeader name => session.workerStep name (Worker.readHeader session.directory) .header
  | .readBytes name start length =>
    session.workerStep name (Worker.readBytes session.directory start length) .bytes
  | .showScratch name =>
    session.withHolding name fun holding =>
      session.answer (.scratch (session.workerOf holding).scratch)
  | .showPath name =>
    session.withHolding name fun holding =>
      session.answer (.path ((session.workerOf holding).current.map OpenFile.path))
  | .finish name => session.workerStep name Worker.endRead fun _ => .done
  | .close name => session.workerStep name Worker.letGo fun _ => .done

/-- The responses to a list of steps. -/
def run : Session → List Step → List Response
  | _, [] => []
  | session, first :: rest =>
    let (next, response) := session.step first
    response :: run next rest

end Snapshot.Session
