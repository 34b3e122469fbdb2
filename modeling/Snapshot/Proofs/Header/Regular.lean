import Snapshot.Proofs.Header.Canonical
import Snapshot.Proofs.Header.Layout

/-!
# Decoded layouts are regular

Nothing of a layout that was put together by hand can be relied on.  One that was
decoded is `Layout.Tabled`: its lists have one entry for each column, names do
not repeat, and widths are one or three (`Header.tabled_of_ofBytes`).  In a file
whose length can be stated it is `Layout.Regular` as well: the columns tile the
file behind the header without anything clamped (`Header.regular_of_ofBytes`).
-/

namespace Snapshot

namespace Layout

/-- What holds of the variable table of every file. -/
structure Tabled (layout : Layout) : Prop where
  names_ne_empty : ∀ name ∈ layout.names, name ≠ ""
  names_nodup : layout.names.Nodup
  types_length : layout.types.length = layout.columns
  widths_length : layout.widths.length = layout.columns
  width_known : ∀ width ∈ layout.widths, width = 1 ∨ width = 3

/-- What holds of the layout of every file whose length can be stated. -/
structure Regular (layout : Layout) : Prop extends Tabled layout where
  addressable : layout.Addressable

variable {layout : Layout}

namespace Tabled

variable (h : layout.Tabled)

include h

/-- Every column is found by its own name. -/
theorem find?_eq_some_iff {name : String} {column : Nat} :
    layout.find? name = some column ↔ layout.names[column]? = some name := by
  refine ⟨find?_eq_some, fun hname => ?_⟩
  cases hfind : layout.find? name with
  | none => exact absurd (List.mem_of_getElem? hname) (find?_eq_none_iff.mp hfind)
  | some found =>
      -- Names do not repeat, so the column that is found first is the only one.
      have hcolumn := (List.getElem?_eq_some_iff.mp hname).1
      have hsame := (find?_eq_some hfind).trans hname.symm
      rw [(List.getElem?_inj (lt_columns_of_find? hfind) h.names_nodup).mp hsame]

/-- A column has a type and a width. -/
theorem exists_type_width {column : Nat} (hcolumn : column < layout.columns) :
    ∃ type width, layout.types[column]? = some type ∧ layout.widths[column]? = some width ∧
      (width = 1 ∨ width = 3) := by
  have htype := List.getElem?_eq_getElem (h.types_length ▸ hcolumn)
  have hwidth := List.getElem?_eq_getElem (h.widths_length ▸ hcolumn)
  exact ⟨_, _, htype, hwidth, h.width_known _ (List.mem_of_getElem? hwidth)⟩

end Tabled

end Layout

/-! ## Decoded headers -/

theorem Section.widths_known {version : UInt32} {names : List String} {widths : List UInt8}
    (hsuit : Section.WidthsSuit version names widths) :
    widths.length = names.length ∧ ∀ width ∈ widths, width = 1 ∨ width = 3 := by
  unfold Section.WidthsSuit at hsuit
  split_ifs at hsuit
  · exact hsuit
  · rw [hsuit, Section.impliedWidths, List.length_map, List.forall_mem_map]
    refine ⟨rfl, fun name _ => ?_⟩
    split_ifs
    · exact .inr rfl
    · exact .inl rfl

theorem Section.Proper.length_pos {s : Section} (h : s.Proper) : 0 < s.encode.length := by
  rw [h.length_encode]
  omega

namespace Header

/-- The table of a decoded layout has all its entries. -/
theorem tabled_of_ofBytes {bytes : Bytes} {h : Header} (hdecode : ofBytes bytes = .ok h) :
    h.layout.Tabled := by
  obtain ⟨s, hproper, rfl, -⟩ := ofBytes_eq_ok_iff.mp hdecode
  obtain ⟨hwidths, hknown⟩ := Section.widths_known hproper.widths_suit
  exact ⟨hproper.names_ne_empty, hproper.names_nodup, hproper.types_length, hwidths, hknown⟩

/-- **Decoded layouts are regular**, and their columns lie in the file. -/
theorem regular_of_ofBytes {bytes : Bytes} {h : Header} (hsize : bytes.length ≤ sizeLimit)
    (hdecode : ofBytes bytes = .ok h) :
    h.layout.Regular ∧
      h.layout.dataStart + h.layout.extentBefore h.layout.columns ≤ bytes.length := by
  have htabled := tabled_of_ofBytes hdecode
  obtain ⟨s, hproper, rfl, rest, rfl, hroom⟩ := ofBytes_eq_ok_iff.mp hdecode
  rw [List.length_append] at hsize ⊢
  have hstart : (s.toHeader s.encode.length).layout.dataStart = s.encode.length := rfl
  obtain ⟨haddressable, hdata⟩ := Layout.addressable_of_room hsize
    (hstart ▸ hproper.length_pos) (Nat.add_le_add_left hroom _)
  rw [hdata] at hroom
  exact ⟨⟨htabled, haddressable⟩, Nat.add_le_add_left hroom _⟩

end Header

end Snapshot
