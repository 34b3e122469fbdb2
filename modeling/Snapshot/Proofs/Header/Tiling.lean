import Mathlib.Algebra.Group.Nat.Defs
import Mathlib.Logic.ExistsUnique
import Snapshot.Proofs.Header.Regular

/-!
# The columns tile the file

All that is read from a decoded header by its columns rests on a few facts, which
are put together here (`Header.tiles_of_ofBytes`).  Each column begins where the
one ahead of it ends, the first one behind the header section, and the last one
ends within the file.  Lengths and places are exact: although every product and
sum is clamped, none of them reaches the limit.

So the columns leave no gap and share no byte.  Every place from the end of the
header section to the end of the columns lies in exactly one of them
(`Layout.Tiles.holds_iff`).
-/

namespace Snapshot

namespace Layout

variable {layout : Layout}

/-! ## Behind the last column -/

theorem Tabled.extent_of_ge (htabled : layout.Tabled) {column : Nat} (h : layout.columns ≤ column) :
    layout.extent column = 0 := by
  have htype : layout.types[column]? = none :=
    List.getElem?_eq_none (htabled.types_length ▸ h)
  simp [extent, htype]

/-! ## Exact places -/

/-- A place in the file is one of the places of a column. -/
def Holds (layout : Layout) (column place : Nat) : Prop :=
  column < layout.columns ∧ layout.columnStart column ≤ place ∧
    place < layout.columnStart column + layout.columnLength column

/-- The columns lie in a file of the given length, one behind the other. -/
structure Tiles (layout : Layout) (length : Nat) : Prop where
  /-- The length of a column is that of its particles, with nothing clamped. -/
  columnLength_eq : ∀ column type width, layout.types[column]? = some type →
    layout.widths[column]? = some width →
      layout.columnLength column = width.toNat * type.size * layout.count
  columnStart_zero : layout.columnStart 0 = layout.dataStart
  columnStart_succ : ∀ column,
    layout.columnStart (column + 1) = layout.columnStart column + layout.columnLength column
  columnsEnd_le : layout.columnsEnd ≤ length

theorem Regular.tiles (h : layout.Regular) {length : Nat}
    (hlength : layout.dataStart + layout.extentBefore layout.columns ≤ length) :
    layout.Tiles length where
  columnLength_eq column type width htype hwidth := by
    have hcolumn : column < layout.columns :=
      h.types_length ▸ (List.getElem?_eq_some_iff.mp htype).1
    rw [h.addressable.columnLength_eq hcolumn, extent_eq htype hwidth]
  columnStart_zero := h.addressable.columnStart_eq (Nat.zero_le _)
  columnStart_succ column := by
    rcases Nat.lt_or_ge column layout.columns with hcolumn | hbehind
    · rw [h.addressable.columnStart_eq hcolumn, h.addressable.columnStart_eq (Nat.le_of_lt hcolumn),
        h.addressable.columnLength_eq hcolumn, extentBefore_succ, Nat.add_assoc]
    · -- Behind the last column nothing is added any more.
      rw [columnStart_of_ge hbehind, columnStart_of_ge (Nat.le_succ_of_le hbehind),
        columnLength_eq_clamp, h.extent_of_ge hbehind]
      rfl
  columnsEnd_le := h.addressable.columnsEnd_eq ▸ hlength

namespace Tiles

variable {length : Nat} (h : layout.Tiles length)

include h

theorem columnStart_mono {column other : Nat} (hle : column ≤ other) :
    layout.columnStart column ≤ layout.columnStart other := by
  induction hle with
  | refl => exact Nat.le_refl _
  | @step other _ ih =>
      rw [h.columnStart_succ]
      exact Nat.le_add_right_of_le ih

/-- A column lies between the header section and the end of the columns. -/
theorem column_within {column : Nat} (hcolumn : column < layout.columns) :
    layout.dataStart ≤ layout.columnStart column ∧
      layout.columnStart column + layout.columnLength column ≤ layout.columnsEnd := by
  have hfirst := h.columnStart_mono (Nat.zero_le column)
  have hlast := h.columnStart_mono (Nat.succ_le_of_lt hcolumn)
  rw [h.columnStart_zero] at hfirst
  rw [Nat.succ_eq_add_one, h.columnStart_succ] at hlast
  exact ⟨hfirst, hlast⟩

/-- A place ahead of a column's start lies in an earlier column. -/
theorem exists_holds {place : Nat} (hstart : layout.dataStart ≤ place) {column : Nat}
    (hcolumn : column ≤ layout.columns) (hplace : place < layout.columnStart column) :
    ∃ holder, layout.Holds holder place := by
  induction column with
  | zero =>
      rw [h.columnStart_zero] at hplace
      exact absurd hstart (Nat.not_le.mpr hplace)
  | succ column ih =>
      rcases Nat.lt_or_ge place (layout.columnStart column) with hahead | hinside
      · exact ih (Nat.le_of_lt hcolumn) hahead
      · rw [h.columnStart_succ] at hplace
        exact ⟨column, hcolumn, hinside, hplace⟩

/-- The place of a column is none of an earlier column. -/
theorem holder_le {place column other : Nat} (hcolumn : layout.Holds column place)
    (hother : layout.Holds other place) : column ≤ other := by
  by_contra hless
  have hnext := h.columnStart_mono (Nat.lt_of_not_le hless)
  have hplace : place < layout.columnStart column := by
    calc place
        < layout.columnStart other + layout.columnLength other := hother.2.2
      _ = layout.columnStart (other + 1) := (h.columnStart_succ other).symm
      _ ≤ layout.columnStart column := hnext
  exact absurd hcolumn.2.1 (Nat.not_le.mpr hplace)

/-- **No gap and no overlap.**  The places from the header section to the end of the columns are
those that lie in a column, and each lies in one column only. -/
theorem holds_iff (place : Nat) :
    (layout.dataStart ≤ place ∧ place < layout.columnsEnd) ↔ ∃! column, layout.Holds column place := by
  constructor
  · intro hplace
    obtain ⟨column, hcolumn⟩ := h.exists_holds hplace.1 (Nat.le_refl _) hplace.2
    refine ⟨column, hcolumn, fun other hother => ?_⟩
    exact Nat.le_antisymm (h.holder_le hother hcolumn) (h.holder_le hcolumn hother)
  · intro hunique
    obtain ⟨column, hcolumn, -⟩ := hunique
    obtain ⟨hfirst, hlast⟩ := h.column_within hcolumn.1
    exact ⟨Nat.le_trans hfirst hcolumn.2.1, Nat.lt_of_lt_of_le hcolumn.2.2 hlast⟩

end Tiles

end Layout

/-! ## Decoded headers -/

/-- Counts that a file may have are the counts of a header. -/
theorem Preamble.Counted.toNat_le {p : Preamble} (h : p.Counted) :
    p.count.toInt.toNat ≤ p.total.toInt.toNat ∧ p.total.toInt.toNat < 2 ^ 63 := by
  have hle := Int64.le_iff_toInt_le.mp h.2
  have hlt := p.total.toInt_lt
  omega

namespace Header

theorem counts_of_ofBytes {bytes : Bytes} {h : Header} (hdecode : ofBytes bytes = .ok h) :
    h.layout.count ≤ h.total ∧ h.total < 2 ^ 63 := by
  obtain ⟨s, hproper, rfl, -⟩ := ofBytes_eq_ok_iff.mp hdecode
  exact hproper.counted.toNat_le

/-- **What every decoded header keeps.**  Its table has one entry for each column and no name twice,
so every column is found by its name; its counts are those of a part of a simulation; and its columns
tile the file behind the header section, with exact lengths and places. -/
theorem tiles_of_ofBytes {bytes : Bytes} {h : Header} (hsize : bytes.length ≤ sizeLimit)
    (hdecode : ofBytes bytes = .ok h) :
    h.layout.Tabled ∧
      (∀ column name, h.layout.names[column]? = some name → h.layout.find? name = some column) ∧
      (h.layout.count ≤ h.total ∧ h.total < 2 ^ 63) ∧
      h.layout.Tiles bytes.length ∧
      ∀ place, (h.layout.dataStart ≤ place ∧ place < h.layout.columnsEnd) ↔
        ∃! column, h.layout.Holds column place := by
  obtain ⟨hregular, hinside⟩ := regular_of_ofBytes hsize hdecode
  have htiles := hregular.tiles hinside
  refine ⟨hregular.toTabled, fun column name hname => ?_, counts_of_ofBytes hdecode, htiles,
    htiles.holds_iff⟩
  exact hregular.find?_eq_some_iff.mpr hname

/-- A section for two particles, with a vector between two columns of numbers. -/
def stripedSection : Section where
  version := 2
  order := .little
  preamble := .ofWords 2 [5, 2, 16, 2, 1, 1, 0, 0, 0, 2, 2, 4, 40, 0, 0, 0, 0, 0, 0]
  native := [1]
  names := ["phi", "v", "mask"]
  types := [.f32, .f64, .u32]
  widths := [1, 3, 1]

/-- A file with the section, whose columns take 8, 48 and 8 bytes, and two bytes behind them. -/
def stripedFile : Bytes := stripedSection.encode ++ List.replicate 66 0x2a

theorem tiles_of_ofBytes_stripedFile :
    let layout := (stripedSection.toHeader 201).layout
    stripedFile.length ≤ sizeLimit ∧
      ofBytes stripedFile = .ok (stripedSection.toHeader 201) ∧
      layout.Tabled ∧ layout.find? "mask" = some 2 ∧ layout.Tiles 267 ∧
      ((201 ≤ 257 ∧ 257 < layout.columnsEnd) ↔ ∃! column, layout.Holds column 257) := by
  intro layout
  have hsize : stripedFile.length ≤ sizeLimit := by decide +kernel
  have hdecode : ofBytes stripedFile = .ok (stripedSection.toHeader 201) := by decide +kernel
  have hlength : stripedFile.length = 267 := by decide +kernel
  obtain ⟨htabled, hfind, -, htiles, hholds⟩ := tiles_of_ofBytes hsize hdecode
  exact ⟨hsize, hdecode, htabled, hfind 2 "mask" rfl, hlength ▸ htiles, hholds 257⟩

end Header

end Snapshot
