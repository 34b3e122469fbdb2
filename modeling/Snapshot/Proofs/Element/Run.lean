import Mathlib.Tactic.SplitIfs
import Snapshot.Element.Run

/-!
# The members of a run by their places

`Run.chunks` cuts, skips and steps through lists.  `Run.chunks_eq_map` says what comes
of it in terms of places alone: member `i` has the bytes of the whole element number
`i * step + component`, that is, those that begin at so many times the element size.
`elementBytes` are these bytes.
-/

namespace Snapshot

/-- The bytes of whole element number `index`. -/
def elementBytes (size : Nat) (raw : Bytes) (index : Nat) : Bytes :=
  (raw.drop (index * size)).take size

/-! ## Cutting and stepping -/

theorem pieces_eq_map (size count : Nat) (raw : Bytes) :
    pieces size count raw = (List.range count).map (elementBytes size raw) := by
  induction count generalizing raw with
  | zero => rfl
  | succ count ih =>
      rw [pieces, ih, List.range_succ_eq_map, List.map_cons, List.map_map]
      congr 1
      · simp [elementBytes]
      · apply List.map_congr_left
        intro index _
        simp only [elementBytes, Function.comp_apply, List.drop_drop, Nat.succ_eq_add_one,
          Nat.succ_mul, Nat.add_comm size]

theorem getElem?_wholeElements {size : Nat} (hsize : 0 < size) {raw : Bytes} {index : Nat}
    (hindex : (index + 1) * size ≤ raw.length) :
    (wholeElements size raw)[index]? = some (elementBytes size raw index) := by
  have hlt : index < raw.length / size := (Nat.le_div_iff_mul_le hsize).mpr hindex
  rw [wholeElements, pieces_eq_map, List.getElem?_map, List.getElem?_range hlt, Option.map_some]

/-- Stepping through a list visits every `stride`-th place. -/
theorem getElem?_everyNth {α : Type} {stride : Nat} (hstride : 0 < stride) (skip : Nat)
    (members : List α) (i : Nat) :
    (everyNth stride skip members)[i]? = members[skip + i * stride]? := by
  induction members generalizing skip i with
  | nil => simp [everyNth]
  | cons a rest ih =>
      cases skip with
      | zero =>
          cases i with
          | zero => simp [everyNth]
          | succ i =>
              have hplace : 0 + (i + 1) * stride = stride - 1 + i * stride + 1 := by
                rw [Nat.succ_mul]
                omega
              rw [everyNth, List.getElem?_cons_succ, ih, hplace, List.getElem?_cons_succ]
      | succ skip =>
          rw [everyNth, ih, Nat.succ_add, List.getElem?_cons_succ]

/-! ## Elements one after the other -/

theorem length_flatMap_of_forall {α : Type} {size : Nat} {form : α → Bytes}
    (hsize : ∀ a, (form a).length = size) (members : List α) :
    (members.flatMap form).length = members.length * size := by
  induction members with
  | nil => exact (Nat.zero_mul _).symm
  | cons a rest ih =>
      rw [List.flatMap_cons, List.length_append, hsize, ih, List.length_cons, Nat.succ_mul,
        Nat.add_comm]

theorem flatMap_eq_around {α : Type} (form : α → Bytes) (members : List α) {i : Nat}
    (hi : i < members.length) :
    members.flatMap form =
      (members.take i).flatMap form ++
        (form members[i] ++ (members.drop (i + 1)).flatMap form) :=
  calc members.flatMap form
      = (members.take i ++ members[i] :: members.drop (i + 1)).flatMap form := by
        rw [← List.drop_eq_getElem_cons hi, List.take_append_drop]
    _ = (members.take i).flatMap form ++
          (form members[i] ++ (members.drop (i + 1)).flatMap form) := by
        rw [List.flatMap_append, List.flatMap_cons]

/-- An element of known size stands at its place among those written down. -/
theorem elementBytes_flatMap {α : Type} {size : Nat} {form : α → Bytes}
    (hsize : ∀ a, (form a).length = size) (members : List α) {i : Nat} (hi : i < members.length) :
    elementBytes size (members.flatMap form) i = form members[i] := by
  have hbefore : ((members.take i).flatMap form).length = i * size := by
    rw [length_flatMap_of_forall hsize, List.length_take_of_le (Nat.le_of_lt hi)]
  rw [elementBytes, flatMap_eq_around form members hi, ← hbefore, List.drop_left,
    ← hsize members[i], List.take_left]

/-! ## Selecting -/

namespace Run

theorem step_pos (run : Run) : 0 < run.step := Nat.le_max_right _ _

/-- The bytes of member `i` of a run. -/
def memberBytes (run : Run) (raw : Bytes) (i : Nat) : Bytes :=
  elementBytes run.type.size raw (i * run.step + run.component)

/-- The check is passed if there is no member or the bytes reach to the end of the last one. -/
theorem check_eq_ok {run : Run} {raw : Bytes} (hfits : run.count = 0 ∨ run.needed ≤ raw.length) :
    run.check raw = .ok () := by
  unfold check
  split_ifs with hcount hshort
  · rfl
  · exact absurd (hfits.resolve_left hcount) (Nat.not_le.mpr hshort)
  · rfl

/-- **A run that fits** has every member at its own place. -/
theorem chunks_eq_map {run : Run} {raw : Bytes} (hfits : run.count = 0 ∨ run.needed ≤ raw.length) :
    run.chunks raw = (List.range run.count).map (run.memberBytes raw) := by
  unfold chunks
  refine List.ext_getElem? fun i => ?_
  rw [List.getElem?_map, List.getElem?_take]
  by_cases hi : i < run.count
  · have hneeded := hfits.resolve_left (Nat.ne_zero_of_lt hi)
    -- Room for the last member is room for every one.
    have hlast : (i * run.step + run.component + 1) * run.type.size ≤ raw.length := by
      refine Nat.le_trans (Nat.mul_le_mul_right _ ?_) hneeded
      have := Nat.mul_le_mul_right run.step (show i ≤ run.count - 1 by omega)
      omega
    rw [if_pos hi, getElem?_everyNth run.step_pos, List.getElem?_drop, List.getElem?_range hi,
      Nat.zero_add, Nat.add_comm run.component, getElem?_wholeElements run.type.size_pos hlast]
    rfl
  · rw [if_neg hi, List.getElem?_eq_none (by simpa using Nat.le_of_not_lt hi)]
    rfl

/-- A run that fits is decoded member by member, each from its own bytes. -/
theorem select_eq_ok {run : Run} {raw : Bytes} (hfits : run.count = 0 ∨ run.needed ≤ raw.length) :
    run.select raw = .ok ((List.range run.count).map fun i =>
      Element.decode run.type run.order (run.memberBytes raw i)) := by
  unfold select
  rw [check_eq_ok hfits, chunks_eq_map hfits]
  simp [Except.map, List.map_map, Function.comp_def]

/-- The members as elements of another type. -/
theorem convert_eq_ok {run : Run} {raw : Bytes} (target : ElementType)
    (hfits : run.count = 0 ∨ run.needed ≤ raw.length) :
    run.convert target raw = .ok ((List.range run.count).map fun i =>
      (Element.decode run.type run.order (run.memberBytes raw i)).convert target) := by
  rw [convert, select_eq_ok hfits]
  simp [Except.map, List.map_map, Function.comp_def]

end Run

end Snapshot
