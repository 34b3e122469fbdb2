import Snapshot.Proofs.Read.Blame
import Snapshot.Proofs.Session.Atomic

/-!
# Failed reads are put down to the right side

A caller who is told that the request was at fault can mend it; a caller who is told otherwise need
not try.  After every run, a read that gets no worker is the caller's fault, and a read that gets
one, at once or later, is the caller's fault exactly if the file of that moment could be opened and
has a header.
-/

namespace Snapshot

open Work

/-- To ask for a worker that cannot be had is the caller's fault. -/
theorem Pool.ask_leaves_usage (pool : Pool) (selector : Selector) :
    (Pool.ask selector).Leaves pool fun result _ =>
      ∀ error, result = .error error → error.isUsage = true := by
  apply (pool.ask_asked selector).mono
  intro result after hasked
  cases hasked with
  | refused error hclaim =>
      intro found hfound
      cases hfound
      unfold Pool.claim at hclaim
      cases selector with
      | own => cases hclaim
      | auto | pinned index =>
          dsimp only at hclaim
          split_ifs at hclaim
          all_goals
            cases hclaim
            rfl
  | own hown | served hclaims hfound | blocked hclaims hnone => exact nofun

namespace Session

/-- The reply to a single read, put down to the right side if the read failed. -/
def RepliesBlamed (session : Session) (path : Path) (reply : Reply) : Prop :=
  ∃ result buffer, reply = .readInto result buffer ∧
    RightlyBlamed (session.directory.openedAt path) result

/-- A reply that is settled is put down to the right side. -/
theorem RepliesSettled.repliesBlamed {session : Session} {path : Path} {request : String × Buffer}
    {reply : Reply} (h : session.RepliesSettled path request reply) :
    session.RepliesBlamed path reply := by
  obtain ⟨result, buffer, hreply, hsettled⟩ := h
  exact ⟨result, buffer, hreply, hsettled.rightlyBlamed⟩

/-- **Nobody is blamed for what another did.**  After every run, a read that is refused a worker
fails by the caller's fault.  A read that gets one, at once or when a later step releases it, fails
by the caller's fault if the file could be opened and its header was decoded; if not, it fails, and
not by the caller's fault. -/
theorem readInto_blame (steps : List Step) {index : Nat}
    (hreader : (Session.start.after steps).reader = some index) {path : Path}
    (hsize : (Session.start.after steps).directory.Measurable path) (text : String)
    (buffer : Buffer) (name : String) :
    let session := Session.start.after steps
    let reply (selector : Selector) : Reply :=
      (session.step (.begin name (.ok selector) (.readInto path text buffer))).2.reply
    (∀ selector error, ((Pool.ask selector).run (session.pool index)).result = .error error →
      reply selector = .readInto (.error error) buffer ∧ error.isUsage = true) ∧
    (∀ selector answer, ((Pool.ask selector).run (session.pool index)).result = .ok answer →
      answer ≠ .blocked → session.RepliesBlamed path (reply selector)) ∧
    ∀ step, ∀ served ∈ (session.step step).2.woken, ∃ pending, session.pending = some pending ∧
      served.name = pending.name ∧
      (pending.call = .readInto path text buffer → session.RepliesBlamed path served.reply) := by
  intro session reply
  have hsound : session.Sound := sound_after steps
  refine ⟨?_, ?_, ?_⟩
  · intro selector error hasked
    exact ⟨begin_refused hreader hasked name _,
      Pool.ask_leaves_usage (session.pool index) selector error hasked⟩
  · intro selector answer hasked hserved
    have hsettled : session.RepliesSettled path (text, buffer) (reply selector) :=
      Sound.repliesSettled hsize fun _ hcall =>
        hsound.begin_reply hreader hasked hserved hcall name
    exact hsettled.repliesBlamed
  · intro step served hserved
    obtain ⟨pending, hpending, hname, hreply⟩ := hsound.woken_reply step hserved
    refine ⟨pending, hpending, hname, fun hcall => ?_⟩
    rw [hcall] at hreply
    have hsettled : session.RepliesSettled path (text, buffer) served.reply :=
      Sound.repliesSettled hsize hreply
    exact hsettled.repliesBlamed

/-- Beside the file that can be read, one with a byte too few for its column. -/
def shortenedSteps : List Step := vectorSteps ++ [.write ⟨"b"⟩ vectorFile.dropLast]

theorem readInto_blame_shortenedSteps :
    (Session.start.after shortenedSteps).reader = some 0 ∧
      (Session.start.after shortenedSteps).directory.Measurable ⟨"b"⟩ ∧
      (Session.start.after shortenedSteps).RepliesBlamed ⟨"b"⟩
        ((Session.start.after shortenedSteps).step
          (.begin "first" (.ok .auto) (.readInto ⟨"b"⟩ "w" (.flat .f32 [7])))).2.reply := by
  have hreader : (Session.start.after shortenedSteps).reader = some 0 := by decide +kernel
  have hasked : ((Pool.ask .auto).run ((Session.start.after shortenedSteps).pool 0)).result =
      .ok (.pooled ⟨1, 0⟩) := by decide +kernel
  have hfile : (Session.start.after shortenedSteps).directory.fetch ⟨"b"⟩ =
      .ok vectorFile.dropLast := by decide +kernel
  have hsize : (Session.start.after shortenedSteps).directory.Measurable ⟨"b"⟩ := by
    intro bytes hbytes
    obtain rfl : vectorFile.dropLast = bytes := Except.ok.inj (hfile.symm.trans hbytes)
    decide +kernel
  exact ⟨hreader, hsize,
    (readInto_blame shortenedSteps hreader hsize "w" (.flat .f32 [7]) "first").2.1 .auto _ hasked
      nofun⟩

end Session

end Snapshot
