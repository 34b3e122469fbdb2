import Snapshot.Header.Decode

/-!
# Where columns lie

Lengths and places of columns are clamped at every step, so that no sum wraps.
`Layout.extent` and `Layout.extentBefore` are the same quantities in exact
arithmetic, and the clamping at every step comes to one clamp at the end
(`Layout.columnStart_eq_clamp`).  Where the exact end of the columns can be
stated at all, nothing was clamped.
-/

namespace Snapshot

/-! ## Clamping -/

theorem clamp_clamp_add (a b : Nat) : clamp (clamp a + b) = clamp (a + b) := by
  unfold clamp
  omega

theorem clamp_add_clamp (a b : Nat) : clamp (a + clamp b) = clamp (a + b) := by
  unfold clamp
  omega

theorem clamp_of_le {a : Nat} (h : a ≤ sizeLimit) : clamp a = a := Nat.min_eq_left h

namespace Layout

variable (layout : Layout)

/-- The bytes of a column: particles times components times element size. -/
def extent (column : Nat) : Nat :=
  match layout.types[column]?, layout.widths[column]? with
  | some type, some width => width.toNat * type.size * layout.count
  | _, _ => 0

/-- The bytes of all columns ahead of the given one. -/
def extentBefore (column : Nat) : Nat := totalSize ((List.range column).map layout.extent)

@[simp] theorem extentBefore_zero : layout.extentBefore 0 = 0 := rfl

theorem extentBefore_succ (column : Nat) :
    layout.extentBefore (column + 1) = layout.extentBefore column + layout.extent column := by
  rw [extentBefore, List.range_succ, List.map_append, totalSize_append]
  rfl

theorem extentBefore_mono {column other : Nat} (h : column ≤ other) :
    layout.extentBefore column ≤ layout.extentBefore other := by
  induction h with
  | refl => exact Nat.le_refl _
  | step _ ih =>
      rw [extentBefore_succ]
      omega

variable {layout}

theorem extent_eq {column : Nat} {type : ElementType} {width : UInt8}
    (htype : layout.types[column]? = some type) (hwidth : layout.widths[column]? = some width) :
    layout.extent column = width.toNat * type.size * layout.count := by
  simp only [extent, htype, hwidth]

theorem columnLength_eq_clamp (column : Nat) :
    layout.columnLength column = clamp (layout.extent column) := by
  unfold columnLength extent
  cases layout.types[column]? with
  | none => rfl
  | some type =>
      cases layout.widths[column]? with
      | none => rfl
      | some width => rfl

theorem columnStart_of_ge {column : Nat} (h : layout.columns ≤ column) :
    layout.columnStart column = layout.columnsEnd := by
  unfold columnsEnd columnStart
  rw [Nat.min_eq_right h, Nat.min_self]

@[simp] theorem columnStart_zero : layout.columnStart 0 = layout.dataStart := by
  simp [columnStart]

/-- The next column begins behind the exact length of this one, or at the limit. -/
theorem columnStart_succ {column : Nat} (hcolumn : column < layout.columns) :
    layout.columnStart (column + 1) = clamp (layout.columnStart column + layout.extent column) := by
  unfold columnStart
  rw [Nat.min_eq_left hcolumn, Nat.min_eq_left (Nat.le_of_lt hcolumn), List.range_succ,
    List.foldl_append, List.foldl_cons, List.foldl_nil, columnLength_eq_clamp, clamp_add_clamp]

/-- Clamping every sum on the way is clamping the last one. -/
theorem columnStart_eq_clamp (hstart : layout.dataStart ≤ sizeLimit) (column : Nat) :
    layout.columnStart column =
      clamp (layout.dataStart + layout.extentBefore (min column layout.columns)) := by
  induction column with
  | zero => simp [clamp_of_le hstart]
  | succ column ih =>
      rcases Nat.lt_or_ge column layout.columns with hcolumn | hbehind
      · rw [columnStart_succ hcolumn, ih, clamp_clamp_add, Nat.min_eq_left hcolumn,
          Nat.min_eq_left (Nat.le_of_lt hcolumn), extentBefore_succ, Nat.add_assoc]
      · -- Beyond the last column nothing is added, on either side.
        have hnext := Nat.le_succ_of_le hbehind
        rw [columnStart_of_ge hnext, ← columnStart_of_ge hbehind, ih, Nat.min_eq_right hbehind,
          Nat.min_eq_right hnext]

theorem dataSize_eq_clamp : layout.dataSize = clamp (layout.extentBefore layout.columns) := by
  unfold dataSize extentBefore
  generalize List.range layout.columns = columns
  induction columns with
  | nil => rfl
  | cons column columns ih =>
      have hsplit : ∀ f : Nat → Nat, totalSize ((column :: columns).map f) =
          f column + totalSize (columns.map f) := fun _ => rfl
      rw [hsplit, hsplit, columnLength_eq_clamp, clamp_clamp_add, ← clamp_add_clamp, ih,
        clamp_add_clamp]

/-! ## Finding columns -/

theorem find?_eq_some {name : String} {column : Nat} (hfind : layout.find? name = some column) :
    layout.names[column]? = some name := by
  obtain ⟨hcolumn, hname, -⟩ := List.findIdx?_eq_some_iff_getElem.mp hfind
  rw [List.getElem?_eq_getElem hcolumn, of_decide_eq_true hname]

theorem find?_eq_none_iff {name : String} : layout.find? name = none ↔ name ∉ layout.names := by
  unfold find?
  rw [List.findIdx?_eq_none_iff]
  constructor
  · intro h hname
    exact of_decide_eq_false (h name hname) rfl
  · intro h other hother
    exact decide_eq_false fun heq => h (heq ▸ hother)

theorem lt_columns_of_find? {name : String} {column : Nat}
    (hfind : layout.find? name = some column) : column < layout.columns :=
  (List.getElem?_eq_some_iff.mp (find?_eq_some hfind)).1

/-! ## Columns that can be addressed -/

/-- The columns end at a place that can be stated. -/
def Addressable (layout : Layout) : Prop :=
  layout.dataStart + layout.extentBefore layout.columns ≤ sizeLimit

namespace Addressable

variable (h : layout.Addressable) {column : Nat}

include h

theorem columnStart_eq (hcolumn : column ≤ layout.columns) :
    layout.columnStart column = layout.dataStart + layout.extentBefore column := by
  -- The column begins no later than the last one ends, so the clamp is never reached.
  have hbefore := layout.extentBefore_mono hcolumn
  have hend : layout.dataStart + layout.extentBefore layout.columns ≤ sizeLimit := h
  rw [columnStart_eq_clamp (by omega), Nat.min_eq_left hcolumn, clamp_of_le (by omega)]

theorem columnLength_eq (hcolumn : column < layout.columns) :
    layout.columnLength column = layout.extent column := by
  have hbefore := layout.extentBefore_mono (Nat.succ_le_of_lt hcolumn)
  have hend : layout.dataStart + layout.extentBefore layout.columns ≤ sizeLimit := h
  rw [Nat.succ_eq_add_one, extentBefore_succ] at hbefore
  rw [columnLength_eq_clamp, clamp_of_le (by omega)]

theorem columnsEnd_eq :
    layout.columnsEnd = layout.dataStart + layout.extentBefore layout.columns :=
  h.columnStart_eq (Nat.le_refl _)

end Addressable

/-- Where the claims for the columns can be met by a file, nothing was clamped. -/
theorem addressable_of_room {length : Nat} (hlength : length ≤ sizeLimit)
    (hstart : 0 < layout.dataStart) (hroom : layout.dataStart + layout.dataSize ≤ length) :
    layout.Addressable ∧ layout.dataSize = layout.extentBefore layout.columns := by
  -- Were the data clamped, even one byte ahead of it would be too much for the file.
  rw [dataSize_eq_clamp] at hroom ⊢
  unfold Addressable
  unfold clamp at hroom ⊢
  omega

end Layout

end Snapshot
