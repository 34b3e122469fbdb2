import Mathlib.Data.List.InsertIdx
import Snapshot.Expression.Basic
import Snapshot.Proofs.Element.Run
import Snapshot.Proofs.Header.Regular

/-!
# Files that store their identifiers

Identifiers that no column stores are counted up from the first one.  The same
numbers can be stored: `Header.storingIds` is the header with one more column for
them, at any position of the table, and `Header.fileStoringIds` is the file with
this header, in which the other columns have the bytes that they had.

The column is named, typed and measured by one entry of the table.  So the other
columns keep what the table says of them under numbers that are `shifted`, and
those behind the new column begin so much later as it is long
(`Layout.extentBefore_shifted`).  The new file has the new header, and nothing
else can be wrong with it (`Header.ofBytes_fileStoringIds`).
-/

namespace Snapshot

/-! ## One more column -/

/-- The number of a column once another one was put in at a position of the table. -/
def shifted (position column : Nat) : Nat :=
  if column < position then column else column + 1

theorem shifted_of_lt {position column : Nat} (h : column < position) :
    shifted position column = column := if_pos h

theorem shifted_of_ge {position column : Nat} (h : position ≤ column) :
    shifted position column = column + 1 := if_neg (Nat.not_lt.mpr h)

theorem getElem?_insertIdx_shifted {α : Type} (members : List α) (a : α)
    (position column : Nat) :
    (members.insertIdx position a)[shifted position column]? = members[column]? := by
  rcases Nat.lt_or_ge column position with hahead | hbehind
  · rw [shifted_of_lt hahead, List.getElem?_insertIdx_of_lt hahead]
  · rw [shifted_of_ge hbehind, List.getElem?_insertIdx_of_gt (Nat.lt_succ_of_le hbehind)]
    rfl

/-- Every number but that of the new column is that of a column which was there. -/
theorem exists_shifted {position other : Nat} (hother : other ≠ position) :
    ∃ column, other = shifted position column := by
  rcases Nat.lt_or_gt_of_ne hother with hahead | hbehind
  · exact ⟨other, (shifted_of_lt hahead).symm⟩
  · have hpositive : 0 < other := Nat.zero_lt_of_lt hbehind
    refine ⟨other - 1, ?_⟩
    rw [shifted_of_ge (Nat.le_sub_one_of_lt hbehind), Nat.sub_add_cancel hpositive]

namespace Layout

/-- The layout with a column for identifiers at a position of the table, and columns that begin at
`start`. -/
def storingIds (layout : Layout) (position start : Nat) : Layout :=
  { layout with
    names := layout.names.insertIdx position identifierColumn
    types := layout.types.insertIdx position .u64
    widths := layout.widths.insertIdx position 1
    dataStart := start }

section

variable (layout : Layout) (position start column : Nat)

theorem names_storingIds_shifted :
    (layout.storingIds position start).names[shifted position column]? = layout.names[column]? :=
  getElem?_insertIdx_shifted _ _ _ _

theorem types_storingIds_shifted :
    (layout.storingIds position start).types[shifted position column]? = layout.types[column]? :=
  getElem?_insertIdx_shifted _ _ _ _

theorem widths_storingIds_shifted :
    (layout.storingIds position start).widths[shifted position column]? = layout.widths[column]? :=
  getElem?_insertIdx_shifted _ _ _ _

theorem extent_storingIds_shifted :
    (layout.storingIds position start).extent (shifted position column) = layout.extent column := by
  unfold extent
  rw [types_storingIds_shifted, widths_storingIds_shifted]
  rfl

end

section

variable {layout : Layout} (htabled : layout.Tabled) {position : Nat}
  (hposition : position ≤ layout.columns) (start : Nat)

include hposition

theorem columns_storingIds : (layout.storingIds position start).columns = layout.columns + 1 :=
  List.length_insertIdx_of_le_length hposition _

theorem names_storingIds_self :
    (layout.storingIds position start).names[position]? = some identifierColumn :=
  List.getElem?_insertIdx_self.trans (if_pos hposition)

include htabled

theorem types_storingIds_self :
    (layout.storingIds position start).types[position]? = some .u64 :=
  List.getElem?_insertIdx_self.trans (if_pos (htabled.types_length ▸ hposition))

theorem widths_storingIds_self :
    (layout.storingIds position start).widths[position]? = some 1 :=
  List.getElem?_insertIdx_self.trans (if_pos (htabled.widths_length ▸ hposition))

theorem extent_storingIds_self :
    (layout.storingIds position start).extent position = 8 * layout.count := by
  rw [extent_eq (types_storingIds_self htabled hposition start)
    (widths_storingIds_self htabled hposition start)]
  rfl

omit htabled hposition in
/-- Nothing changes ahead of the new column. -/
theorem extentBefore_storingIds_of_le {column : Nat} (hahead : column ≤ position) :
    (layout.storingIds position start).extentBefore column = layout.extentBefore column := by
  induction column with
  | zero => rfl
  | succ column ih =>
      have hextent := layout.extent_storingIds_shifted position start column
      rw [shifted_of_lt hahead] at hextent
      rw [extentBefore_succ, extentBefore_succ, ih (Nat.le_of_lt hahead), hextent]

/-- What was behind the new column begins later by its length. -/
theorem extentBefore_storingIds_of_ge {column : Nat} (hbehind : position ≤ column) :
    (layout.storingIds position start).extentBefore (column + 1) =
      layout.extentBefore column + 8 * layout.count := by
  induction hbehind with
  | refl =>
      rw [extentBefore_succ, extentBefore_storingIds_of_le start (Nat.le_refl _),
        extent_storingIds_self htabled hposition]
  | @step column hbehind ih =>
      have hextent := layout.extent_storingIds_shifted position start column
      rw [shifted_of_ge hbehind] at hextent
      rw [extentBefore_succ, ih, hextent, extentBefore_succ, Nat.add_right_comm]

end

end Layout

/-! ## The section and the header -/

theorem totalSize_perm {sizes others : List Nat} (h : sizes.Perm others) :
    totalSize sizes = totalSize others := h.sum_nat

namespace Section

/-- The bytes that the entry of a column takes in the variable table. -/
def entryLength (version : UInt32) (name : String) : Nat :=
  4 + (nameBytes name).length + 3 + if storesWidths version then 1 else 0

/-- The section with a column for identifiers at a position of the table. -/
def storingIds (s : Section) (position : Nat) : Section :=
  { s with
    names := s.names.insertIdx position identifierColumn
    types := s.types.insertIdx position .u64
    widths := s.widths.insertIdx position 1 }

theorem WidthsSuit.storingIds {version : UInt32} {names : List String} {widths : List UInt8}
    (hsuit : WidthsSuit version names widths) {position : Nat} (hposition : position ≤ names.length) :
    WidthsSuit version (names.insertIdx position identifierColumn) (widths.insertIdx position 1) := by
  unfold WidthsSuit at hsuit ⊢
  split_ifs at hsuit ⊢ with hversion
  · obtain ⟨hlength, hknown⟩ := hsuit
    have hwidths := hlength ▸ hposition
    rw [List.length_insertIdx_of_le_length hposition, List.length_insertIdx_of_le_length hwidths,
      hlength]
    refine ⟨rfl, fun width hwidth => ?_⟩
    rcases (List.mem_insertIdx hwidths).mp hwidth with rfl | hwidth
    · exact .inl rfl
    · exact hknown width hwidth
  · -- Identifiers are not one of the columns that are vectors by their names.
    rw [hsuit, impliedWidths, impliedWidths, List.map_insertIdx]
    rfl

namespace Proper

variable {s : Section} (h : s.Proper) {position : Nat} (hposition : position ≤ s.names.length)
  (hids : identifierColumn ∉ s.names) (hfew : s.names.length + 1 < wordBound 4)

include h hposition hids hfew

/-- A section stays proper, if there is room for one more column. -/
theorem storingIds : (s.storingIds position).Proper := by
  have hforall : ∀ p : String → Prop, p identifierColumn → (∀ name ∈ s.names, p name) →
      ∀ name ∈ s.names.insertIdx position identifierColumn, p name := by
    intro p hown hothers name hname
    rcases (List.mem_insertIdx hposition).mp hname with rfl | hname
    · exact hown
    · exact hothers name hname
  refine
    { version_known := h.version_known
      preamble_suits := h.preamble_suits
      counted := h.counted
      native_short := h.native_short
      names_few := ?_
      names_short := hforall _ (by decide +kernel) h.names_short
      names_ne_empty := hforall _ (by decide) h.names_ne_empty
      names_nodup := ?_
      types_length := ?_
      widths_suit := h.widths_suit.storingIds hposition }
  · show (s.names.insertIdx position identifierColumn).length < wordBound 4
    rwa [List.length_insertIdx_of_le_length hposition]
  · show (s.names.insertIdx position identifierColumn).Nodup
    rw [(List.perm_insertIdx _ _ hposition).nodup_iff]
    exact List.nodup_cons.mpr ⟨hids, h.names_nodup⟩
  · show (s.types.insertIdx position .u64).length =
      (s.names.insertIdx position identifierColumn).length
    rw [List.length_insertIdx_of_le_length hposition,
      List.length_insertIdx_of_le_length (h.types_length ▸ hposition), h.types_length]

theorem length_encode_storingIds :
    (s.storingIds position).encode.length =
      s.encode.length + entryLength s.version identifierColumn := by
  have hnames : (s.storingIds position).names = s.names.insertIdx position identifierColumn := rfl
  have hsizes : totalSize ((s.names.insertIdx position identifierColumn).map fun name =>
      (nameBytes name).length) =
        (nameBytes identifierColumn).length +
          totalSize (s.names.map fun name => (nameBytes name).length) :=
    totalSize_perm ((List.perm_insertIdx _ _ hposition).map _)
  rw [(h.storingIds hposition hids hfew).length_encode, h.length_encode, hnames, hsizes,
    List.length_insertIdx_of_le_length hposition]
  show 8 + 8 * Preamble.wordCount s.version + (4 + s.native.length) + 4 +
    4 * (s.names.length + 1) + _ + 3 * (s.names.length + 1) +
      (if storesWidths s.version then s.names.length + 1 else 0) = _
  unfold entryLength
  split_ifs <;> omega

end Proper

end Section

namespace Header

/-- The header with a column for identifiers at a position of the table. -/
def storingIds (h : Header) (position : Nat) : Header :=
  { h with
    layout := h.layout.storingIds position
      (h.layout.dataStart + Section.entryLength h.version identifierColumn) }

/-- The identifiers that are counted up, as they are stored. -/
def idBytes (h : Header) : Bytes :=
  (List.range h.layout.count).flatMap fun i =>
    Element.encode h.order (Element.ofPattern .u64 (h.layout.firstId.toNat + i))

/-- What stands behind the section of a file, with the identifiers put in at the place of a
column. -/
def dataStoringIds (h : Header) (bytes : Bytes) (position : Nat) : Bytes :=
  (bytes.drop h.layout.dataStart).take (h.layout.extentBefore position) ++ h.idBytes ++
    bytes.drop (h.layout.dataStart + h.layout.extentBefore position)

/-- The file with a column for identifiers at a position of the table. -/
def fileStoringIds (h : Header) (bytes : Bytes) (position : Nat) : Bytes :=
  (h.storingIds position).toSection.encode ++ h.dataStoringIds bytes position

theorem length_idBytes (h : Header) : h.idBytes.length = 8 * h.layout.count := by
  rw [idBytes, length_flatMap_of_forall fun _ => Element.length_encode _ _, List.length_range,
    Nat.mul_comm]
  rfl

/-! ### The data of the new file -/

section

variable {bytes : Bytes} {h : Header} {position : Nat}
  (hinside : h.layout.dataStart + h.layout.extentBefore position ≤ bytes.length)

include hinside

theorem length_ahead :
    ((bytes.drop h.layout.dataStart).take (h.layout.extentBefore position)).length =
      h.layout.extentBefore position := by
  rw [List.length_take, List.length_drop]
  omega

/-- Ahead of the new column stands what stood there. -/
theorem slice_ahead {start size : Nat} (hend : start + size ≤ h.layout.extentBefore position) :
    ((h.dataStoringIds bytes position).drop start).take size =
      (bytes.drop (h.layout.dataStart + start)).take size := by
  have hlength := length_ahead hinside
  rw [dataStoringIds, List.append_assoc, List.drop_append_of_le_length (by omega),
    List.take_append_of_le_length (by rw [List.length_drop]; omega), List.drop_take, List.take_take,
    List.drop_drop, Nat.min_eq_left (by omega)]

/-- In the new column stand the identifiers. -/
theorem slice_ids {start size : Nat} (hend : start + size ≤ 8 * h.layout.count) :
    ((h.dataStoringIds bytes position).drop (h.layout.extentBefore position + start)).take size =
      (h.idBytes.drop start).take size := by
  have hlength := h.length_idBytes
  rw [dataStoringIds, List.append_assoc, ← List.drop_drop, List.drop_left' (length_ahead hinside),
    List.drop_append_of_le_length (by omega),
    List.take_append_of_le_length (by rw [List.length_drop]; omega)]

/-- Behind the new column stands what stood at its place. -/
theorem drop_behind (start : Nat) :
    (h.dataStoringIds bytes position).drop
        (h.layout.extentBefore position + 8 * h.layout.count + start) =
      bytes.drop (h.layout.dataStart + h.layout.extentBefore position + start) := by
  have hlength : ((bytes.drop h.layout.dataStart).take (h.layout.extentBefore position) ++
      h.idBytes).length = h.layout.extentBefore position + 8 * h.layout.count := by
    rw [List.length_append, length_ahead hinside, length_idBytes]
  rw [dataStoringIds, ← List.drop_drop, List.drop_left' hlength, List.drop_drop]

end

/-! ### The new file -/

section

variable {bytes : Bytes} {h : Header} (hdecode : ofBytes bytes = .ok h) {position : Nat}
  (hposition : position ≤ h.layout.columns) (hids : identifierColumn ∉ h.layout.names)
  (hfew : h.layout.columns + 1 < wordBound 4)

include hdecode hposition hids hfew

/-- The new header is stored in a section of its own. -/
theorem exists_section_storingIds :
    ∃ s : Section, s.Proper ∧ s = (h.storingIds position).toSection ∧
      h.storingIds position = s.toHeader s.encode.length := by
  obtain ⟨s, hproper, rfl, -⟩ := ofBytes_eq_ok_iff.mp hdecode
  have hstoring := hproper.storingIds hposition hids hfew
  have hheader : (s.toHeader s.encode.length).storingIds position =
      (s.storingIds position).toHeader (s.storingIds position).encode.length := by
    rw [hproper.length_encode_storingIds hposition hids hfew]
    rfl
  refine ⟨s.storingIds position, hstoring, ?_, hheader⟩
  rw [hheader, Section.toSection_toHeader hstoring]

theorem length_toSection_storingIds :
    (h.storingIds position).toSection.encode.length =
      h.layout.dataStart + Section.entryLength h.version identifierColumn := by
  obtain ⟨s, -, hsection, hheader⟩ := exists_section_storingIds hdecode hposition hids hfew
  have hstart : (h.storingIds position).layout.dataStart = s.encode.length := by
    rw [hheader]
    rfl
  rw [← hsection, ← hstart]
  rfl

/-- The new file is longer by the entry in the table and by the identifiers. -/
theorem length_fileStoringIds :
    (h.fileStoringIds bytes position).length =
      bytes.length + Section.entryLength h.version identifierColumn + 8 * h.layout.count := by
  have hstart := (encode_toSection_eq_take hdecode).1
  have hsection := length_toSection_storingIds hdecode hposition hids hfew
  rw [fileStoringIds, dataStoringIds, List.length_append, List.length_append, List.length_append,
    hsection, List.length_take, List.length_drop, List.length_drop, length_idBytes]
  omega

/-- The columns of the new file begin behind its section. -/
theorem drop_dataStart_fileStoringIds (bytes : Bytes) :
    (h.fileStoringIds bytes position).drop (h.storingIds position).layout.dataStart =
      h.dataStoringIds bytes position :=
  List.drop_left' (length_toSection_storingIds hdecode hposition hids hfew)

omit hids hfew in
/-- The place of the new column lies in the file. -/
theorem inside_storingIds (hsize : bytes.length ≤ sizeLimit) :
    h.layout.dataStart + h.layout.extentBefore position ≤ bytes.length :=
  Nat.le_trans (Nat.add_le_add_left (h.layout.extentBefore_mono hposition) _)
    (regular_of_ofBytes hsize hdecode).2

/-- **The new file has the new header.** -/
theorem ofBytes_fileStoringIds (hsize : bytes.length ≤ sizeLimit) :
    ofBytes (h.fileStoringIds bytes position) = .ok (h.storingIds position) := by
  obtain ⟨s, hproper, hsection, hheader⟩ :=
    exists_section_storingIds hdecode hposition hids hfew
  obtain ⟨hregular, hinside⟩ := regular_of_ofBytes hsize hdecode
  refine ofBytes_eq_ok_iff.mpr ⟨s, hproper, hheader, h.dataStoringIds bytes position, ?_, ?_⟩
  · rw [hsection, fileStoringIds]
  · have hbefore := h.layout.extentBefore_mono hposition
    have hextent : (h.storingIds position).layout.extentBefore (h.layout.columns + 1) =
        h.layout.extentBefore h.layout.columns + 8 * h.layout.count :=
      Layout.extentBefore_storingIds_of_ge hregular.toTabled hposition _ hposition
    have hcolumns : (h.storingIds position).layout.columns = h.layout.columns + 1 :=
      Layout.columns_storingIds hposition _
    rw [Layout.dataSize_eq_clamp, hcolumns, hextent]
    refine Nat.le_trans (Nat.min_le_left _ _) ?_
    rw [dataStoringIds, List.length_append, List.length_append, List.length_take, List.length_drop,
      List.length_drop, length_idBytes]
    omega

end

end Header

end Snapshot
