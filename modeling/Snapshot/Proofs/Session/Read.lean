import Mathlib.Control.Monad.Basic
import Snapshot.Proofs.Read.Simple
import Snapshot.Proofs.Session.Frame
import Snapshot.Proofs.Session.Sound

/-!
# What reads answer

A read that gets a worker at once answers what its outcome says, and an outcome
knows nothing of the worker (`Session.Sound.begin_reply`).  When it gets its worker
matters only through the files of that moment: a call that has waited answers what
it would have answered at once (`Session.Sound.woken_reply`).

Two things follow for every run.  It makes no difference whether a worker of the
pool serves a read, with whatever file it has kept, or a new worker that opens
its file for the first time (`Session.reply_pooled_eq_reply_own`).  And what a
simple read means can be said in terms of the bytes of the file alone
(`Session.readInto_reply`).
-/

namespace Snapshot.Session

namespace Sound

variable {session : Session} (h : session.Sound)

include h

theorem proceed_reply {call : Call} {reply : Reply}
    (hcall : call.outcome session.directory = some reply) (name : String) (index : Nat)
    (slot : Slot) : (session.proceed name index slot call).reply = reply := by
  have hperform := (perform_eq ((h.pool index).worker slot) session.directory call).1
  rw [hcall, Option.map_eq_some_iff] at hperform
  obtain ⟨read, hread, rfl⟩ := hperform
  unfold Session.proceed
  dsimp only
  rw [hread]

omit h in
theorem proceedOwn_reply {worker : Worker} (hworker : worker.Sound) {call : Call} {reply : Reply}
    (hcall : call.outcome session.directory = some reply) (name : String) :
    (session.proceedOwn name worker call).reply = reply := by
  have hperform := (perform_eq hworker session.directory call).1
  rw [hcall, Option.map_eq_some_iff] at hperform
  obtain ⟨read, hread, rfl⟩ := hperform
  unfold Session.proceedOwn
  rw [hread]

/-- **The reply to a read** that gets a worker at once is the outcome of the request. -/
theorem begin_reply {index : Nat} (hreader : session.reader = some index) {selector : Selector}
    {answer : Answer} (hasked : ((Pool.ask selector).run (session.pool index)).result = .ok answer)
    (hserved : answer ≠ .blocked) {call : Call} {reply : Reply}
    (hcall : call.outcome session.directory = some reply) (name : String) :
    (session.step (.begin name (.ok selector) call)).2.reply = reply := by
  have hstate := h.atPool index (Pool.ask_leaves (session.pool index) selector)
  have hresult : (session.atPool index (Pool.ask selector)).result = .ok answer := hasked
  have houtcome : call.outcome (session.atPool index (Pool.ask selector)).state.directory =
      some reply := hcall
  show (session.withReader (session.begin name selector call)).2.reply = reply
  unfold Session.withReader
  rw [hreader]
  show (session.begin name selector call index).2.reply = reply
  unfold Session.begin
  dsimp only
  rw [hresult]
  cases answer with
  | blocked => exact absurd rfl hserved
  | own => exact proceedOwn_reply (Worker.sound_fresh _) houtcome name
  | pooled slot => exact hstate.proceed_reply houtcome name index slot

end Sound

/-! ## The call that has waited -/

variable (session : Session) in
/-- The call that waits goes on in a session with the same files, whatever was done before it. -/
def GoesOn (served : Woken) : Prop :=
  ∃ (middle : Session) (woken : Option Slot), middle.Sound ∧ middle.directory = session.directory ∧
    middle.pending = session.pending ∧ served ∈ (middle.resume woken).2

theorem GoesOn.exists_pending {session : Session} {served : Woken} (h : session.GoesOn served) :
    ∃ pending, session.pending = some pending ∧ served.name = pending.name ∧
      ∀ reply, pending.call.outcome session.directory = some reply → served.reply = reply := by
  obtain ⟨middle, woken, hsound, hdirectory, hpending, hserved⟩ := h
  obtain ⟨slot, pending, hwaiting, hname, hreply⟩ := middle.eq_of_mem_resume hserved
  refine ⟨pending, hpending ▸ hwaiting, hname, fun reply hcall => ?_⟩
  have hidle : Sound { middle with pending := none } := ⟨hsound.pools, hsound.singles⟩
  rw [← hdirectory] at hcall
  rw [hreply]
  exact hidle.proceed_reply hcall pending.name pending.pool slot

namespace Sound

variable {session : Session} (h : session.Sound)

include h

/-- Behind a call that gets a worker and gives it back, the call that waits goes on. -/
theorem goesOn_begin {name : String} {selector : Selector} {call : Call} {index : Nat}
    {served : Woken} (hserved : served ∈ (session.begin name selector call index).2.woken) :
    session.GoesOn served := by
  have hasked := h.atPool index (Pool.ask_leaves (session.pool index) selector)
  unfold Session.begin at hserved
  dsimp only at hserved
  cases hresult : (session.atPool index (Pool.ask selector)).result with
  | error error =>
      rw [hresult] at hserved
      cases hserved
  | ok answer =>
      rw [hresult] at hserved
      cases answer with
      | blocked => cases hserved
      | own => cases hserved
      | pooled slot =>
          exact ⟨_, _, hasked.proceed name index slot call, directory_proceed .., pending_proceed ..,
            hserved⟩

/-- Behind a worker that is given up, the call that waits goes on. -/
theorem goesOn_drop {name : String} {index : Nat} {slot : Slot} {served : Woken}
    (hserved : served ∈ (session.drop name (.pooled index slot)).2.woken) :
    session.GoesOn served := by
  have hwithout : Sound { session with
      holdings := session.holdings.filter fun entry => entry.1 ≠ name } :=
    ⟨h.pools, fun other worker hother => h.singles other worker (List.mem_filter.mp hother).1⟩
  exact ⟨_, _, hwithout.giveBack index slot, rfl, rfl, hserved⟩

/-- **A call that has waited** does what it would have done at once. -/
theorem woken_reply (step : Step) {served : Woken}
    (hserved : served ∈ (session.step step).2.woken) :
    ∃ pending, session.pending = some pending ∧ served.name = pending.name ∧
      ∀ reply, pending.call.outcome session.directory = some reply → served.reply = reply := by
  apply GoesOn.exists_pending
  cases hmoves : step.movesWorkers with
  | false =>
      rw [session.woken_eq_nil hmoves] at hserved
      cases hserved
  | true =>
      have hmoved := session.moved_step hmoves
      generalize session.step step = result at hmoved hserved
      cases hmoved with
      | idle step reply => cases hserved
      | asked hreader name selector call => exact h.goesOn_begin hserved
      | dismissed name worker => cases hserved
      | dropped hheld => exact h.goesOn_drop hserved

end Sound

/-- **Files that are kept are never out of date.**  After every run, a read that gets a worker of
the pool at once has the result and the buffers of the same read with a new worker. -/
theorem reply_pooled_eq_reply_own (steps : List Step) {index : Nat} {selector : Selector}
    {slot : Slot} {call : Call} (hreader : (Session.start.after steps).reader = some index)
    (hgranted : ((Pool.ask selector).run ((Session.start.after steps).pool index)).result =
      .ok (.pooled slot))
    (hread : call ≠ .hold) (name : String) :
    ((Session.start.after steps).step (.begin name (.ok selector) call)).2.reply =
      ((Session.start.after steps).step (.begin name (.ok .own) call)).2.reply := by
  have hsound := sound_after steps
  have hreply : ∃ reply, call.outcome (Session.start.after steps).directory = some reply := by
    cases call with
    | hold => exact absurd rfl hread
    | readInto path text buffer => exact ⟨_, rfl⟩
    | readBatch path texts buffers => exact ⟨_, rfl⟩
  obtain ⟨reply, hcall⟩ := hreply
  have hown : ((Pool.ask .own).run ((Session.start.after steps).pool index)).result = .ok .own := rfl
  rw [hsound.begin_reply hreader hgranted Answer.noConfusion hcall name,
    hsound.begin_reply hreader hown Answer.noConfusion hcall name]

/-- A worker keeps a file with the number 7, and another file takes its place. -/
def replacedFile : List Step :=
  let file (id : UInt64) : Bytes :=
    Section.encode ⟨1, .little, .ofWords 1 [1, 1, 1, 1, 1, id, 0, 0, 0, 0, 0, 0], [], [], [], []⟩
  [.newReader (.filled ⟨1, 0, true⟩), .write ⟨"a"⟩ (file 7),
    .begin "first" (.ok .auto) (.readInto ⟨"a"⟩ "id" (.flat .u64 [0])), .replace ⟨"a"⟩ (file 8)]

theorem reply_pooled_eq_reply_own_replacedFile :
    let session := Session.start.after replacedFile
    let read : Call := .readInto ⟨"a"⟩ "id" (.flat .u64 [0])
    session.reader = some 0 ∧
      ((Pool.ask (.pinned 0)).run (session.pool 0)).result = .ok (.pooled ⟨1, 0⟩) ∧
      -- The path is that of the file which the worker keeps.
      (((session.pool 0).worker ⟨1, 0⟩).kept? session.directory ⟨"a"⟩).isSome ∧
      (session.step (.begin "second" (.ok (.pinned 0)) read)).2.reply =
        (session.step (.begin "second" (.ok .own) read)).2.reply ∧
      (session.step (.begin "second" (.ok (.pinned 0)) read)).2.reply =
        .readInto (.ok ()) (.flat .u64 [8]) := by
  intro session read
  have hreader : session.reader = some 0 := by decide +kernel
  have hgranted : ((Pool.ask (.pinned 0)).run (session.pool 0)).result = .ok (.pooled ⟨1, 0⟩) := by
    decide +kernel
  have hread : read ≠ .hold := Call.noConfusion
  have houtcome : readOutcome session.directory ⟨"a"⟩ "id" (.flat .u64 [0]) =
      (.ok (), .flat .u64 [8]) := by decide +kernel
  have hcall : read.outcome session.directory = some (.readInto (.ok ()) (.flat .u64 [8])) := by
    show some (Reply.readInto _ _) = _
    rw [houtcome]
  have hsame := reply_pooled_eq_reply_own replacedFile hreader hgranted hread "second"
  have hmade : ((Pool.ask .own).run (session.pool 0)).result = .ok .own := rfl
  have hown := (sound_after replacedFile).begin_reply hreader hmade nofun hcall "second"
  exact ⟨hreader, hgranted, by decide +kernel, hsame, hsame.trans hown⟩

/-! ## The numbers of a file -/

/-- The reply to a read of a file with a decoded header: it succeeds exactly where the text is a
selection that the layout admits, and then every entry of the buffer is the number at its place in
the file. -/
def RepliesPlaces (h : Header) (bytes : Bytes) (text : String) (buffer : Buffer) (reply : Reply) :
    Prop :=
  ∃ result after, reply = .readInto result after ∧
    (result = .ok () ↔ ∃ selection, Expression.parse text = .ok (.one selection) ∧
      h.layout.Admits selection buffer) ∧
    ∀ selection, Expression.parse text = .ok (.one selection) → result = .ok () →
      after = h.filled bytes selection buffer

/-- **What a simple read answers.**  After every run, a read of a single selection from a file with
a decoded header succeeds exactly where the layout admits the selection and the buffer; then every
entry of the buffer is the number at its place in the file, and all these places lie in it.  So it
is for a read that gets a worker at once, and for one that gets it after it has waited. -/
theorem readInto_reply (steps : List Step) {path : Path} {bytes : Bytes} {h : Header}
    (hfile : (Session.start.after steps).directory.fetch path = .ok bytes)
    (hsize : bytes.length ≤ sizeLimit) (hdecode : Header.ofBytes bytes = .ok h) {text : String}
    (hsimple : Expression.parse text ≠ .ok .records) (buffer : Buffer) :
    let session := Session.start.after steps
    h.Covered bytes ∧
    (∀ index selector answer name, session.reader = some index →
      ((Pool.ask selector).run (session.pool index)).result = .ok answer → answer ≠ .blocked →
        RepliesPlaces h bytes text buffer
          (session.step (.begin name (.ok selector) (.readInto path text buffer))).2.reply) ∧
    ∀ step, ∀ served ∈ (session.step step).2.woken, ∃ pending, session.pending = some pending ∧
      served.name = pending.name ∧
      (pending.call = .readInto path text buffer →
        RepliesPlaces h bytes text buffer served.reply) := by
  intro session
  have hsound : session.Sound := sound_after steps
  obtain ⟨hok, hfilled⟩ := readOutcome_simple hfile hsize hdecode hsimple buffer
  have hplaces : ∀ reply, (∀ expected,
      (Call.readInto path text buffer).outcome session.directory = some expected →
        reply = expected) → RepliesPlaces h bytes text buffer reply := by
    intro reply hreply
    refine ⟨_, _, hreply _ rfl, hok, fun selection hparse hresult => ?_⟩
    obtain ⟨other, hother, hadmits⟩ := hok.mp hresult
    obtain rfl : other = selection := by
      cases hother.symm.trans hparse
      rfl
    exact (congrArg Prod.snd (hfilled other hparse hadmits) :)
  obtain ⟨hregular, hinside⟩ := Header.regular_of_ofBytes hsize hdecode
  refine ⟨Header.covered hregular hinside, ?_, ?_⟩
  · intro index selector answer name hreader hasked hserved
    exact hplaces _ fun _ hcall => hsound.begin_reply hreader hasked hserved hcall name
  · intro step served hserved
    obtain ⟨pending, hpending, hname, hreply⟩ := hsound.woken_reply step hserved
    refine ⟨pending, hpending, hname, fun hcall => hplaces _ ?_⟩
    rw [hcall] at hreply
    exact hreply

/-- A file with one particle at (1, 2, 3), which has the number 9. -/
def vectorFile : Bytes :=
  Header.bigEndianSection.encode ++
    [0x3f, 0x80, 0, 0, 0x40, 0, 0, 0, 0x40, 0x40, 0, 0, 0, 0, 0, 0, 0, 0, 0, 9]

/-- A reader, and a file that it can read. -/
def vectorSteps : List Step := [.newReader (.filled ⟨1, 0, true⟩), .write ⟨"a"⟩ vectorFile]

/-- The worker is held, and a read of a component waits for it. -/
def vectorWaits : List Step :=
  vectorSteps ++ [.begin "old" (.ok .auto) .hold,
    .begin "first" (.ok .auto) (.readInto ⟨"a"⟩ "x[2]" (.flat .f64 [0]))]

theorem readInto_reply_vectorFile :
    let header := Header.bigEndianSection.toHeader 131
    let session := Session.start.after vectorWaits
    Header.ofBytes vectorFile = .ok header ∧ header.Covered vectorFile ∧
      -- One read has a worker of its own, and the other one goes on when the worker is released.
      (session.step (.begin "own" (.ok .own)
        (.readInto ⟨"a"⟩ "x[2]" (.flat .f64 [0])))).2.reply =
          .readInto (.ok ()) (.flat .f64 [0x4008000000000000]) ∧
      (session.step (.release "old")).2.woken.map Woken.reply =
        [.readInto (.ok ()) (.flat .f64 [0x4008000000000000])] := by
  intro header session
  have hdecode : Header.ofBytes vectorFile = .ok header := by decide +kernel
  have hparse : Expression.parse "x[2]" = .ok (.one ⟨"x", some 2⟩) := by decide +kernel
  have hadmits : header.layout.Admits ⟨"x", some 2⟩ (.flat .f64 [0]) :=
    ⟨.inl List.mem_cons_self, fun _ => ⟨0, rfl, rfl⟩, nofun, fun _ => rfl, rfl⟩
  have hfilled : header.filled vectorFile ⟨"x", some 2⟩ (.flat .f64 [0]) =
      .flat .f64 [0x4008000000000000] := by decide +kernel
  have hvalue : ∀ reply, RepliesPlaces header vectorFile "x[2]" (.flat .f64 [0]) reply →
      reply = .readInto (.ok ()) (.flat .f64 [0x4008000000000000]) := by
    rintro reply ⟨result, after, hreply, hok, hafter⟩
    have hresult := hok.mpr ⟨_, hparse, hadmits⟩
    rw [hreply, hafter _ hparse hresult, hresult, hfilled]
  obtain ⟨hcovered, hatOnce, hlater⟩ := @readInto_reply vectorWaits ⟨"a"⟩ vectorFile header
    (by decide +kernel) (by decide +kernel) hdecode "x[2]" (by rw [hparse]; nofun) (.flat .f64 [0])
  refine ⟨hdecode, hcovered, hvalue _ (hatOnce 0 .own .own "own" (by decide +kernel) rfl nofun), ?_⟩
  have hnames : (session.step (.release "old")).2.woken.map Woken.name = ["first"] := by
    decide +kernel
  obtain ⟨served, hwoken, -⟩ := List.map_eq_singleton_iff.mp hnames
  obtain ⟨pending, hpending, -, hserved⟩ := hlater (.release "old") served
    (by rw [hwoken]; exact List.mem_singleton_self served)
  obtain rfl : ⟨"first", 0, .readInto ⟨"a"⟩ "x[2]" (.flat .f64 [0])⟩ = pending :=
    Option.some.inj ((by rfl : session.pending = _).symm.trans hpending)
  rw [hwoken, List.map_singleton, hvalue _ (hserved rfl)]

end Snapshot.Session
