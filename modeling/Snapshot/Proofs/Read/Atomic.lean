import Snapshot.Proofs.Read.Records

/-!
# Reads are done whole or not at all

Whether a read succeeds is settled before its first column is fetched.  The columns of a decoded
layout lie in the file, so every range can be read, and the run that a checked selection asks for
fits in its column; what was planned is therefore carried out (`deliver_of_planRead`).  A read that
fails has failed at its path or at its plan, and its buffer is as it was (`readOutcome_settled`).

Several expressions are all planned before the first of them is carried out.  They are read as if
each were read by itself, or none of them is read (`batchOutcome_settled`).
-/

namespace Snapshot

/-! ## One expression -/

/-- The file that a path leads to is no longer than a length can be stated. -/
def Directory.Measurable (directory : Directory) (path : Path) : Prop :=
  ∀ bytes, directory.fetch path = .ok bytes → bytes.length ≤ sizeLimit

/-- What is opened has the layout of a file, and its columns lie in it. -/
theorem regular_of_openedAt {directory : Directory} {path : Path}
    (hsize : directory.Measurable path) {entry : Entry} {h : Header}
    (hopened : directory.openedAt path = .ok (entry, h)) :
    h.layout.Regular ∧ h.layout.dataStart + h.layout.extentBefore h.layout.columns ≤
      (directory.contents entry).length := by
  unfold Directory.openedAt at hopened
  obtain ⟨found, hfollow, hopened⟩ := bind_eq_ok_iff.mp hopened
  obtain ⟨header, hheader, hpair⟩ := bind_eq_ok_iff.mp hopened
  cases hpair
  rw [mapError_eq_ok_iff] at hfollow
  cases entry with
  | directory place => cases hheader
  | file number =>
      have hfetch : directory.fetch path = .ok (directory.contents (.file number)) := by
        unfold Directory.fetch
        rw [hfollow]
      exact Header.regular_of_ofBytes (hsize _ hfetch) (mapError_eq_ok_iff.mp hheader)

/-- What comes of reading an expression, once its path is opened or not: it fails there, at its
plan, or not at all. -/
inductive Settled (opened : Except ReadError (Entry × Header)) (text : String) (buffer : Buffer) :
    Except ReadError Unit → Buffer → Prop
  /-- The path cannot be opened, or what is there has no header. -/
  | unopened {error : ReadError} (hopened : opened = .error error) :
    Settled opened text buffer (.error error) buffer
  /-- The expression cannot be read from the file into the buffer. -/
  | unplanned {entry : Entry} {h : Header} {error : ReadError} (hopened : opened = .ok (entry, h))
    (hplan : planRead h.layout text buffer = .error error) :
    Settled opened text buffer (.error error) buffer
  | done {entry : Entry} {h : Header} {accesses : List Access} (hopened : opened = .ok (entry, h))
    (hplan : planRead h.layout text buffer = .ok accesses) (filled : Buffer) :
    Settled opened text buffer (.ok ()) filled

section

variable {directory : Directory} {path : Path} (hsize : directory.Measurable path)

include hsize

/-- **A read fails before it has changed anything**, or not at all. -/
theorem readOutcome_settled (text : String) (buffer : Buffer) :
    Settled (directory.openedAt path) text buffer (readOutcome directory path text buffer).1
      (readOutcome directory path text buffer).2 := by
  unfold readOutcome
  cases hopened : directory.openedAt path with
  | error error => exact .unopened rfl
  | ok opened =>
      obtain ⟨entry, h⟩ := opened
      obtain ⟨hregular, hinside⟩ := regular_of_openedAt hsize hopened
      dsimp only
      cases hplan : planRead h.layout text buffer with
      | error error => exact .unplanned rfl hplan
      | ok accesses =>
          obtain ⟨expression, -, hfilled⟩ := deliver_of_planRead hregular hinside rfl hplan
          dsimp only
          rw [hfilled]
          exact .done rfl hplan _

end

/-! ## Several expressions -/

/-- What comes of reading several expressions, given what comes of each one by itself: all of them
are read, or the first that fails decides and no buffer is changed. -/
inductive AllSettled (opened : Except ReadError (Entry × Header))
    (single : String × Buffer → Except ReadError Unit → Buffer → Prop)
    (requests : List (String × Buffer)) : Except ReadError Unit → List Buffer → Prop
  | unopened {error : ReadError} (hopened : opened = .error error) :
    AllSettled opened single requests (.error error) (requests.map Prod.snd)
  | unplanned {found : Entry × Header} {before rest : List (String × Buffer)}
    {request : String × Buffer} {error : ReadError} (hopened : opened = .ok found)
    (hsplit : requests = before ++ request :: rest)
    (hbefore : ∀ earlier ∈ before, ∃ filled, single earlier (.ok ()) filled)
    (hfails : single request (.error error) request.2) :
    AllSettled opened single requests (.error error) (requests.map Prod.snd)
  | done {filled : List Buffer}
    (hread : List.Forall₂ (fun request => single request (.ok ())) requests filled) :
    AllSettled opened single requests (.ok ()) filled

theorem AllSettled.mono {opened : Except ReadError (Entry × Header)}
    {single other : String × Buffer → Except ReadError Unit → Buffer → Prop}
    {requests : List (String × Buffer)} {result : Except ReadError Unit} {filled : List Buffer}
    (h : AllSettled opened single requests result filled)
    (himplies : ∀ request result buffer, single request result buffer →
      other request result buffer) :
    AllSettled opened other requests result filled := by
  cases h with
  | unopened hopened => exact .unopened hopened
  | unplanned hopened hsplit hbefore hfails =>
      refine .unplanned hopened hsplit (fun earlier hearlier => ?_) (himplies _ _ _ hfails)
      obtain ⟨buffer, hread⟩ := hbefore earlier hearlier
      exact ⟨buffer, himplies _ _ _ hread⟩
  | done hread => exact .done (hread.imp fun request buffer => himplies request _ buffer)

section

variable {directory : Directory} {path : Path} (hsize : directory.Measurable path)

include hsize

theorem readOutcome_of_planRead {entry : Entry} {h : Header}
    (hopened : directory.openedAt path = .ok (entry, h)) {text : String} {buffer : Buffer}
    {accesses : List Access} (hplan : planRead h.layout text buffer = .ok accesses) :
    ∃ filled, deliver directory entry h.order 0 accesses buffer = (.ok (), filled) ∧
      readOutcome directory path text buffer = (.ok (), filled) := by
  obtain ⟨hregular, hinside⟩ := regular_of_openedAt hsize hopened
  obtain ⟨expression, -, hfilled⟩ := deliver_of_planRead hregular hinside rfl hplan
  exact ⟨_, hfilled, (readOutcome_eq_deliver hopened hplan).trans hfilled⟩

/-- Plans are carried out one after the other, each in its own buffer. -/
theorem deliverAll_of_plans {entry : Entry} {h : Header}
    (hopened : directory.openedAt path = .ok (entry, h)) {requests : List (String × Buffer)}
    {plans : List (List Access)}
    (hplans : List.Forall₂ (fun request accesses =>
      planRead h.layout request.1 request.2 = .ok accesses) requests plans)
    (finished : List Buffer) :
    ∃ filled, deliverAll directory entry h.order finished.length plans
        (finished ++ requests.map Prod.snd) = (.ok (), finished ++ filled) ∧
      List.Forall₂ (fun request buffer =>
        readOutcome directory path request.1 request.2 = (.ok (), buffer)) requests filled := by
  induction hplans generalizing finished with
  | nil => exact ⟨[], rfl, .nil⟩
  | @cons request accesses requests plans hplan _ ih =>
      obtain ⟨buffer, hbuffer, hsingle⟩ := readOutcome_of_planRead hsize hopened hplan
      obtain ⟨filled, hrest, hothers⟩ := ih (finished ++ [buffer])
      refine ⟨buffer :: filled, ?_, .cons hsingle hothers⟩
      have hown : (finished ++ (request :: requests).map Prod.snd).getD finished.length
          (.records []) = request.2 := by simp
      have hset : (finished ++ (request :: requests).map Prod.snd).set finished.length buffer =
          finished ++ [buffer] ++ requests.map Prod.snd := by simp
      rw [List.length_append, List.length_singleton] at hrest
      unfold deliverAll
      rw [hown, hbuffer]
      dsimp only
      rw [hset, hrest, List.append_assoc, List.singleton_append]

/-- **Several expressions are read as each by itself**, or none of them is. -/
theorem batchOutcome_settled (requests : List (String × Buffer)) :
    AllSettled (directory.openedAt path)
      (fun request result buffer =>
        readOutcome directory path request.1 request.2 = (result, buffer)) requests
      (batchOutcome directory path (requests.map Prod.fst) (requests.map Prod.snd)).1
      (batchOutcome directory path (requests.map Prod.fst) (requests.map Prod.snd)).2 := by
  have hzip : (requests.map Prod.fst).zip (requests.map Prod.snd) = requests := by
    rw [List.zip_map', List.map_id']
  unfold batchOutcome
  rw [hzip]
  cases hopened : directory.openedAt path with
  | error error => exact .unopened rfl
  | ok opened =>
      obtain ⟨entry, h⟩ := opened
      dsimp only
      cases hplans : requests.mapM fun request => planRead h.layout request.1 request.2 with
      | error error =>
          obtain ⟨before, request, rest, hsplit, hbefore, hfails⟩ :=
            exists_first_of_mapM_eq_error hplans
          refine .unplanned rfl hsplit ?_ ?_
          · intro earlier hearlier
            obtain ⟨accesses, hplan⟩ := hbefore earlier hearlier
            obtain ⟨filled, -, hread⟩ := readOutcome_of_planRead hsize hopened hplan
            exact ⟨filled, hread⟩
          · exact readOutcome_of_refused hopened hfails
      | ok plans =>
          obtain ⟨filled, hall, hread⟩ :=
            deliverAll_of_plans hsize hopened (mapM_eq_ok_iff.mp hplans) []
          dsimp only
          rw [show deliverAll directory entry h.order 0 plans (requests.map Prod.snd) =
            (.ok (), filled) from hall]
          exact .done hread

end

end Snapshot
