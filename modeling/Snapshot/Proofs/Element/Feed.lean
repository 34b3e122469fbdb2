import Mathlib.Tactic.SplitIfs
import Snapshot.Proofs.Element.Run

/-!
# What a sink is handed

A sink gets the members of a run in their order, each with its number and each from its own place
in the bytes, or it gets nothing at all.  Which of the two is decided by the bytes up to the end of
the last member, before the loop begins: the check counts bytes, the members are found by cutting,
skipping and stepping, and the two agree for every stride and every component.

Writing to the entry with the number of the member is one such sink.  So a list is written from
end to end, or it stays as it is.
-/

namespace Snapshot

/-! ## One call for each member -/

theorem zipIdx_map_range {α : Type} (f : Nat → α) (count : Nat) :
    ((List.range count).map f).zipIdx = (List.range count).map fun i => (f i, i) := by
  induction count with
  | zero => rfl
  | succ count ih =>
      simp only [List.range_succ, List.map_append, List.map_cons, List.map_nil, List.zipIdx_append,
        ih, List.length_map, List.length_range, Nat.zero_add, List.zipIdx_cons, List.zipIdx_nil]

/-- Entries that are set one after the other are all set in the end. -/
theorem foldl_set_range {α : Type} (f : Nat → α) (entries : List α) :
    (List.range entries.length).foldl (fun entries i => entries.set i (f i)) entries =
      (List.range entries.length).map f := by
  -- So far the first `count` entries are new, and those behind them are as they were.
  have hsofar : ∀ count, count ≤ entries.length →
      (List.range count).foldl (fun entries i => entries.set i (f i)) entries =
        (List.range count).map f ++ entries.drop count := by
    intro count hcount
    induction count with
    | zero => rfl
    | succ count ih =>
        have hlength : ((List.range count).map f).length = count := by
          rw [List.length_map, List.length_range]
        rw [List.range_succ, List.foldl_append, ih (Nat.le_of_succ_le hcount), List.foldl_cons,
          List.foldl_nil, List.set_append_right _ _ (Nat.le_of_eq hlength), hlength, Nat.sub_self,
          List.drop_eq_getElem_cons hcount, List.set_cons_zero, List.map_append, List.append_assoc]
        rfl
  rw [hsofar entries.length (Nat.le_refl _), List.drop_length, List.append_nil]

namespace Run

/-! ## Runs that fit -/

/-- The bytes reach to the end of the last member, if there is one. -/
def Fits (run : Run) (raw : Bytes) : Prop :=
  run.count = 0 ∨
    ((run.count - 1) * max run.stride 1 + run.component + 1) * run.type.size ≤ raw.length

instance (run : Run) (raw : Bytes) : Decidable (run.Fits raw) :=
  inferInstanceAs (Decidable (_ ∨ _))

/-- Member `i` of a run as an element of another type. -/
def member (run : Run) (target : ElementType) (raw : Bytes) (i : Nat) : Element target :=
  (Element.decode run.type run.order (run.memberBytes raw i)).convert target

/-- What a sink is handed when a run fits, call by call. -/
def calls (run : Run) (target : ElementType) (raw : Bytes) : List (Nat × Element target) :=
  (List.range run.count).map fun i => (i, run.member target raw i)

/-- A run that does not fit is turned down before its first member. -/
theorem check_eq_error {run : Run} {raw : Bytes} (hshort : ¬run.Fits raw) :
    run.check raw = .error (.truncated run.needed raw.length) := by
  obtain ⟨hcount, hneeded⟩ := not_or.mp hshort
  have hmissing : raw.length < run.needed := Nat.lt_of_not_le hneeded
  unfold check
  rw [if_neg hcount, if_pos hmissing]

/-- The loop calls the sink for each chunk, with the numbers counted up. -/
theorem handOver_eq_foldl {σ : Type} (run : Run) (target : ElementType)
    (sink : Nat → Element target → σ → σ) (first : Nat) (chunks : List Bytes) (s : σ) :
    run.handOver target sink first chunks s =
      (chunks.zipIdx first).foldl
        (fun s entry => sink entry.2 ((Element.decode run.type run.order entry.1).convert target) s)
        s := by
  induction chunks generalizing first s with
  | nil => rfl
  | cons chunk chunks ih =>
      rw [handOver, ih, List.zipIdx_cons, List.foldl_cons]

theorem feed_of_fits {σ : Type} {run : Run} {raw : Bytes} (hfits : run.Fits raw)
    (target : ElementType) (sink : Nat → Element target → σ → σ) (s : σ) :
    run.feed target raw sink s =
      (.ok (), (run.calls target raw).foldl (fun s call => sink call.1 call.2 s) s) := by
  unfold feed calls
  rw [check_eq_ok hfits]
  dsimp only
  rw [handOver_eq_foldl, chunks_eq_map hfits, zipIdx_map_range, List.foldl_map, List.foldl_map]
  rfl

theorem feed_of_not_fits {σ : Type} {run : Run} {raw : Bytes} (hshort : ¬run.Fits raw)
    (target : ElementType) (sink : Nat → Element target → σ → σ) (s : σ) :
    run.feed target raw sink s = (.error (.truncated run.needed raw.length), s) := by
  unfold feed
  rw [check_eq_error hshort]

/-- **A sink is handed all of a run or nothing.**  Where the bytes reach to the end of the last
member, the sink is called once for each member, in order, with the element from the member's
own place; otherwise the missing bytes are counted, and the sink is not called.  So a list is
overwritten from end to end, or it keeps every entry. -/
theorem handed_whole_or_not_at_all (run : Run) (target : ElementType) (raw : Bytes) :
    (∀ (σ : Type) (sink : Nat → Element target → σ → σ) (s : σ),
      run.feed target raw sink s =
        if run.Fits raw then
          (.ok (), (run.calls target raw).foldl (fun s call => sink call.1 call.2 s) s)
        else (.error (.truncated run.needed raw.length), s)) ∧
    ∀ entries : List (Element target),
      run.writeInto raw entries =
        let whole : Run := { run with count := entries.length }
        if whole.Fits raw then
          (.ok (), (List.range entries.length).map (run.member target raw))
        else (.error (.truncated whole.needed raw.length), entries) := by
  constructor
  · intro σ sink s
    split_ifs with hfits
    · exact feed_of_fits hfits target sink s
    · exact feed_of_not_fits hfits target sink s
  · intro entries
    dsimp only
    unfold writeInto
    split_ifs with hfits
    · rw [feed_of_fits hfits]
      dsimp only [calls]
      rw [List.foldl_map]
      exact congrArg (Prod.mk _) (foldl_set_range (run.member target raw) entries)
    · exact feed_of_not_fits hfits target _ entries

/-- The second components of two vectors of words, with a word left over behind them. -/
example :
    let raw : Bytes := [1, 0, 0, 0, 2, 0, 0, 0, 3, 0, 0, 0, 4, 0, 0, 0, 5, 0, 0, 0, 6, 0]
    let run : Run := ⟨.u32, .little, 3, 1, 2⟩
    (run.feed .u32 raw (fun i value calls => calls ++ [(i, value)]) []).2 = [(0, 2), (1, 5)] := by
  decide

end Run

end Snapshot
