import Mathlib.Algebra.BigOperators.Group.Finset.Basic
import Mathlib.Order.Bounds.Defs
import Snapshot.Proofs.Header.Layout

/-!
# Places are clamped exact sums

A layout that was put together by hand may hold anything: lists of different lengths, widths that
no file has, and counts so great that every product is clamped.  The place of a column is the exact
one all the same, as far as it can be stated at all: the lengths of the columns ahead of it are
added up without a limit, none for a column that lacks a type or a width, and the limit is put to
the sum at the end (`Layout.places_clamped`).

So places never go back from one column to the next, do not change behind the last column, and have
the end of the columns as their greatest.
-/

namespace Snapshot

theorem clamp_mono : Monotone clamp := fun _ _ hle => min_le_min_right sizeLimit hle

namespace Layout

variable (layout : Layout)

theorem extentBefore_eq_sum (column : ℕ) :
    layout.extentBefore column = ∑ before ∈ Finset.range column, layout.extent before := by
  induction column with
  | zero => rfl
  | succ column ih => rw [extentBefore_succ, Finset.sum_range_succ, ih]

variable {layout}

section

variable (hstart : layout.dataStart ≤ sizeLimit)

include hstart

theorem columnStart_le_sizeLimit (column : ℕ) : layout.columnStart column ≤ sizeLimit := by
  rw [columnStart_eq_clamp hstart]
  exact min_le_right _ _

theorem columnStart_monotone : Monotone layout.columnStart := by
  intro column other hle
  rw [columnStart_eq_clamp hstart, columnStart_eq_clamp hstart]
  apply clamp_mono
  exact Nat.add_le_add_left (layout.extentBefore_mono (min_le_min_right _ hle)) _

theorem isGreatest_columnsEnd : IsGreatest (Set.range layout.columnStart) layout.columnsEnd := by
  constructor
  · exact ⟨layout.columns, rfl⟩
  · rintro place ⟨column, rfl⟩
    rcases Nat.le_total column layout.columns with hle | hge
    · exact columnStart_monotone hstart hle
    · exact (columnStart_of_ge hge).le

end

/-- **One clamp at the end.**  Whatever the lists of a layout hold, a column begins behind the exact
lengths of those ahead of it, or at the limit if that is less.  The same holds of one column and the
next, so nothing wraps: places do not decrease, lie between the end of the header section and the
limit, stay the same behind the last column, and reach their greatest at the end of the columns. -/
theorem places_clamped (layout : Layout) (hstart : layout.dataStart ≤ 2 ^ 64 - 1) :
    (∀ column, layout.columnStart column =
        min (2 ^ 64 - 1) (layout.dataStart +
          ∑ before ∈ Finset.range (min column layout.columns), layout.extent before)) ∧
      (∀ column < layout.columns, layout.columnStart (column + 1) =
        min (2 ^ 64 - 1) (layout.columnStart column + layout.extent column)) ∧
      Monotone layout.columnStart ∧
      (∀ column, layout.dataStart ≤ layout.columnStart column ∧
        layout.columnStart column ≤ 2 ^ 64 - 1) ∧
      (∀ column, layout.columns ≤ column →
        layout.columnStart column = layout.columnStart layout.columns) ∧
      IsGreatest (Set.range layout.columnStart) layout.columnsEnd := by
  have hmono := columnStart_monotone hstart
  refine ⟨?_, ?_, hmono, ?_, fun column hbehind => columnStart_of_ge hbehind,
    isGreatest_columnsEnd hstart⟩
  · intro column
    calc layout.columnStart column
        = clamp (layout.dataStart + layout.extentBefore (min column layout.columns)) :=
          columnStart_eq_clamp hstart column
      _ = min (2 ^ 64 - 1) (layout.dataStart + layout.extentBefore (min column layout.columns)) :=
          min_comm _ _
      _ = min (2 ^ 64 - 1) (layout.dataStart +
            ∑ before ∈ Finset.range (min column layout.columns), layout.extent before) := by
          rw [extentBefore_eq_sum]
  · intro column hcolumn
    exact (columnStart_succ hcolumn).trans (min_comm _ _)
  · intro column
    refine ⟨?_, columnStart_le_sizeLimit hstart column⟩
    calc layout.dataStart = layout.columnStart 0 := columnStart_zero.symm
      _ ≤ layout.columnStart column := hmono (Nat.zero_le column)

/-- A layout that no file has.  The first column takes half of all places, the second one more than
there are; the third one lacks a width, and the last one a type, too. -/
def unevenLayout : Layout where
  names := ["phi", "v", "mask", "id"]
  types := [.u32, .f64, .f64]
  widths := [1, 3]
  count := 2 ^ 61
  firstId := 0
  dataStart := 10

theorem places_clamped_unevenLayout :
    unevenLayout.dataStart ≤ 2 ^ 64 - 1 ∧
      unevenLayout.columnStart 1 = 2 ^ 63 + 10 ∧
      (1 < unevenLayout.columns ∧ unevenLayout.columnStart 2 =
        min (2 ^ 64 - 1) (unevenLayout.columnStart 1 + 3 * 8 * 2 ^ 61)) ∧
      (unevenLayout.columns ≤ 7 ∧ unevenLayout.columnStart 7 = unevenLayout.columnStart 4) ∧
      IsGreatest (Set.range unevenLayout.columnStart) (2 ^ 64 - 1) := by
  have hstart : unevenLayout.dataStart ≤ 2 ^ 64 - 1 := by decide
  have hsecond : 1 < unevenLayout.columns := by decide
  have hbehind : unevenLayout.columns ≤ 7 := by decide
  obtain ⟨hplaces, hnext, -, -, hsame, hgreatest⟩ := places_clamped unevenLayout hstart
  have hend : unevenLayout.columnsEnd = 2 ^ 64 - 1 := by
    rw [columnsEnd, hplaces]
    decide
  refine ⟨hstart, ?_, ⟨hsecond, hnext 1 hsecond⟩, ⟨hbehind, hsame 7 hbehind⟩, hend ▸ hgreatest⟩
  rw [hplaces]
  decide

end Layout

end Snapshot
