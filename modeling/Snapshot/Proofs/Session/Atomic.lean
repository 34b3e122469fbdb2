import Snapshot.Proofs.Read.Atomic
import Snapshot.Proofs.Session.Read

/-!
# Reads of a session are done whole or not at all

What is known of outcomes is known of replies.  A batch answers what its requests answer one by one,
or it fails and every buffer is as it was, whichever worker serves it, at once or later.
-/

namespace Snapshot.Session

/-! ## Replies -/

section

variable (session : Session) (path : Path)

/-- A request, read by itself through the selector, answers the result and the buffer. -/
def AnswersAlone (selector : Selector) (name : String) (request : String × Buffer)
    (result : Except ReadError Unit) (buffer : Buffer) : Prop :=
  (session.step (.begin name (.ok selector) (.readInto path request.1 request.2))).2.reply =
    .readInto result buffer

/-- The reply to a single read: it failed before it changed its buffer, or it did not fail. -/
def RepliesSettled (request : String × Buffer) (reply : Reply) : Prop :=
  ∃ result buffer, reply = .readInto result buffer ∧
    Settled (session.directory.openedAt path) request.1 request.2 result buffer

/-- The reply to a batch: each request was read as by itself, or none was and the first to fail by
itself is the reason. -/
def RepliesAllSettled (selector : Selector) (name : String) (requests : List (String × Buffer))
    (reply : Reply) : Prop :=
  ∃ result buffers, reply = .readBatch result buffers ∧
    AllSettled (session.directory.openedAt path) (session.AnswersAlone path selector name) requests
      result buffers

/-- The batch of a list of requests. -/
def batchOf (requests : List (String × Buffer)) : Call :=
  .readBatch path (requests.map Prod.fst) (requests.map Prod.snd)

end

namespace Sound

variable {session : Session} (h : session.Sound)

include h

/-! ## Reads that have a worker -/

variable {path : Path} (hsize : session.directory.Measurable path)

/-- A request that is served answers its outcome. -/
theorem answersAlone {index : Nat} (hreader : session.reader = some index) {selector : Selector}
    {answer : Answer} (hasked : ((Pool.ask selector).run (session.pool index)).result = .ok answer)
    (hserved : answer ≠ .blocked) (name : String) {request : String × Buffer}
    {result : Except ReadError Unit} {buffer : Buffer}
    (houtcome : readOutcome session.directory path request.1 request.2 = (result, buffer)) :
    session.AnswersAlone path selector name request result buffer := by
  have hcall : (Call.readInto path request.1 request.2).outcome session.directory =
      some (.readInto result buffer) := by
    show some (Reply.readInto _ _) = _
    rw [houtcome]
  exact h.begin_reply hreader hasked hserved hcall name

include hsize

omit h in
theorem repliesSettled {request : String × Buffer} {reply : Reply}
    (hreply : ∀ expected, (Call.readInto path request.1 request.2).outcome session.directory =
      some expected → reply = expected) : session.RepliesSettled path request reply :=
  ⟨_, _, hreply _ rfl, readOutcome_settled hsize request.1 request.2⟩

theorem repliesAllSettled {index : Nat} (hreader : session.reader = some index)
    {selector : Selector} {answer : Answer}
    (hasked : ((Pool.ask selector).run (session.pool index)).result = .ok answer)
    (hserved : answer ≠ .blocked) (name : String) {requests : List (String × Buffer)}
    {reply : Reply} (hreply : ∀ expected,
      (batchOf path requests).outcome session.directory = some expected → reply = expected) :
    session.RepliesAllSettled path selector name requests reply :=
  ⟨_, _, hreply _ rfl, (batchOutcome_settled hsize requests).mono fun _ _ _ houtcome =>
    h.answersAlone hreader hasked hserved name houtcome⟩

end Sound

/-! ## Reads of a run -/

/-- A call that is refused a worker answers why, and its buffers are as they were. -/
theorem begin_refused {session : Session} {index : Nat} (hreader : session.reader = some index)
    {selector : Selector} {error : ReadError}
    (hasked : ((Pool.ask selector).run (session.pool index)).result = .error error) (name : String)
    (call : Call) :
    (session.step (.begin name (.ok selector) call)).2.reply = call.refused error := by
  have hresult : (session.atPool index (Pool.ask selector)).result = .error error := hasked
  rw [step_begin hreader]
  unfold Session.begin
  dsimp only
  rw [hresult]

/-- **Batches are read as their requests one by one, or not at all.**  After every run, a batch that
gets no worker fails as each of its requests would; one that gets a worker, at once or later, is
answered request by request, or fails with its buffers as they were.  A single request fails at its
path or at its plan, before its buffer is touched, or it does not fail. -/
theorem readBatch_reply (steps : List Step) {index : Nat}
    (hreader : (Session.start.after steps).reader = some index) {path : Path}
    (hsize : (Session.start.after steps).directory.Measurable path)
    (requests : List (String × Buffer)) (name : String) :
    let session := Session.start.after steps
    let reply (selector : Selector) (call : Call) : Reply :=
      (session.step (.begin name (.ok selector) call)).2.reply
    (∀ selector error, ((Pool.ask selector).run (session.pool index)).result = .error error →
      reply selector (batchOf path requests) =
          .readBatch (.error error) (requests.map Prod.snd) ∧
        ∀ request, session.AnswersAlone path selector name request (.error error) request.2) ∧
    (∀ selector answer, ((Pool.ask selector).run (session.pool index)).result = .ok answer →
      answer ≠ .blocked →
        session.RepliesAllSettled path selector name requests
          (reply selector (batchOf path requests)) ∧
        ∀ request : String × Buffer, session.RepliesSettled path request
          (reply selector (.readInto path request.1 request.2))) ∧
    ∀ step, ∀ served ∈ (session.step step).2.woken, ∃ pending, session.pending = some pending ∧
      served.name = pending.name ∧
      (pending.call = batchOf path requests →
        session.RepliesAllSettled path .own name requests served.reply) ∧
      ∀ request : String × Buffer, pending.call = .readInto path request.1 request.2 →
        session.RepliesSettled path request served.reply := by
  intro session reply
  have hsound : session.Sound := sound_after steps
  have hown : ((Pool.ask .own).run (session.pool index)).result = .ok .own := rfl
  refine ⟨?_, ?_, ?_⟩
  · intro selector error hasked
    exact ⟨begin_refused hreader hasked name _, fun request => begin_refused hreader hasked name _⟩
  · intro selector answer hasked hserved
    refine ⟨?_, fun request => ?_⟩
    · exact hsound.repliesAllSettled hsize hreader hasked hserved name fun _ hcall =>
        hsound.begin_reply hreader hasked hserved hcall name
    · exact Sound.repliesSettled hsize fun _ hcall =>
        hsound.begin_reply hreader hasked hserved hcall name
  · intro step served hserved
    obtain ⟨pending, hpending, hname, hreply⟩ := hsound.woken_reply step hserved
    refine ⟨pending, hpending, hname, fun hcall => ?_, fun request hcall => ?_⟩
    · rw [hcall] at hreply
      exact hsound.repliesAllSettled hsize hreader hown Answer.noConfusion name hreply
    · rw [hcall] at hreply
      exact Sound.repliesSettled hsize hreply

/-- Two requests for the one particle of the file. -/
def soundRequests : List (String × Buffer) := [("x[2]", .flat .f64 [0]), ("id", .flat .u32 [7])]

/-- Two requests, the second of which names no column. -/
def mixedRequests : List (String × Buffer) := [("id", .flat .u64 [7]), ("w", .flat .f32 [7])]

theorem readBatch_reply_mixedRequests :
    let session := Session.start.after vectorSteps
    let reply (requests : List (String × Buffer)) : Reply :=
      (session.step (.begin "first" (.ok .auto) (batchOf ⟨"a"⟩ requests))).2.reply
    session.reader = some 0 ∧ session.directory.Measurable ⟨"a"⟩ ∧
      (session.RepliesAllSettled ⟨"a"⟩ .auto "first" soundRequests (reply soundRequests) ∧
        reply soundRequests =
          .readBatch (.ok ()) [.flat .f64 [0x4008000000000000], .flat .u32 [9]]) ∧
      session.RepliesAllSettled ⟨"a"⟩ .auto "first" mixedRequests (reply mixedRequests) ∧
        reply mixedRequests =
          .readBatch (.error (.fault (.noSuchVariable "w" ["x", "id"])))
            [.flat .u64 [7], .flat .f32 [7]] := by
  intro session reply
  have hreader : session.reader = some 0 := by decide +kernel
  have hasked : ((Pool.ask .auto).run (session.pool 0)).result = .ok (.pooled ⟨1, 0⟩) := by
    decide +kernel
  have hfile : session.directory.fetch ⟨"a"⟩ = .ok vectorFile := by decide +kernel
  have hsize : session.directory.Measurable ⟨"a"⟩ := by
    intro bytes hbytes
    obtain rfl : vectorFile = bytes := Except.ok.inj (hfile.symm.trans hbytes)
    decide +kernel
  have hvalues : ∀ {requests result buffers},
      batchOutcome session.directory ⟨"a"⟩ (requests.map Prod.fst) (requests.map Prod.snd) =
        (result, buffers) → reply requests = .readBatch result buffers := by
    intro requests result buffers houtcome
    apply (sound_after vectorSteps).begin_reply hreader hasked nofun
    show some (Reply.readBatch _ _) = _
    rw [houtcome]
  have hsettled := fun requests =>
    ((readBatch_reply vectorSteps hreader hsize requests "first").2.1 .auto _ hasked nofun).1
  exact ⟨hreader, hsize, ⟨hsettled soundRequests, hvalues (by decide +kernel)⟩,
    hsettled mixedRequests, hvalues (by decide +kernel)⟩

end Snapshot.Session
