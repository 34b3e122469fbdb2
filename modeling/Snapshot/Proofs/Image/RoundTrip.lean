import Snapshot.Image.Sample
import Snapshot.Proofs.Element.Run
import Snapshot.Proofs.Header.Canonical
import Snapshot.Proofs.Header.Layout

/-!
# What was written is read back

`Image.Proper` lists what an image has to keep so that its file can be read
again, and `Image.header` is the header that is then found in it.  The sections
agree because the stored section of an image is proper
(`Image.Proper.storedSection_proper`).  The columns agree because the exact
extents of the layout are the lengths of the encoded columns
(`Image.Proper.extentBefore_eq`), so the bytes between the end of one column and
the end of the next are those that were written.
-/

namespace Snapshot

/-! ## The preamble that is stored -/

namespace Preamble

/-- What a version keeps of the preamble.  The first one has no place for the format code, and
takes the slab for the whole decomposition. -/
def stored (p : Preamble) (version : UInt32) : Preamble :=
  if version = 1 then
    { p with format := 0, geometry := ⟨p.geometry.span, Triple.replicate 0, p.geometry.span⟩ }
  else p

variable (p : Preamble) (version : UInt32)

theorem stored_suits : (p.stored version).Suits version := by
  intro hversion
  unfold stored
  rw [if_pos hversion]
  exact ⟨rfl, rfl, rfl⟩

theorem words_stored : (p.stored version).words version = p.words version := by
  unfold stored words
  split_ifs with hversion
  · rfl
  · rfl

theorem stored_count : (p.stored version).count = p.count := by
  unfold stored
  split_ifs <;> rfl

theorem stored_total : (p.stored version).total = p.total := by
  unfold stored
  split_ifs <;> rfl

theorem Counted.stored {p : Preamble} (h : p.Counted) : (p.stored version).Counted := by
  unfold Counted
  rwa [stored_count, stored_total]

end Preamble

namespace Image

/-! ## Proper images -/

/-- The image can be written down and read again. -/
structure Proper (image : Image) : Prop where
  version_known : image.version = 1 ∨ image.version = 2
  counted : image.preamble.Counted
  native_short : image.native.length < wordBound 4
  columns_few : image.columns.length < wordBound 4
  names_short : ∀ column ∈ image.columns, (nameBytes column.name).length < wordBound 4
  names_ne_empty : ∀ column ∈ image.columns, column.name ≠ ""
  names_nodup : (image.columns.map Column.name).Nodup
  width_known : ∀ column ∈ image.columns, column.width = 1 ∨ column.width = 3
  width_implied : image.version = 1 →
    ∀ column ∈ image.columns, column.width = 3 ↔ column.name ∈ impliedTripleNames
  filled : ∀ column ∈ image.columns,
    column.values.length = image.preamble.count.toInt.toNat * column.width.toNat
  /-- The length of the file is a number that can be stated. -/
  storable : image.encode.length ≤ sizeLimit

/-- A new image has counts that can be stored, up to the greatest number of particles whose
eightfold can be stated. -/
theorem counted_ofCount {n : Nat} (hn : 8 * n < 0x8000000000000000) : (ofCount n).preamble.Counted := by
  have htotal : Int64.ofNat n * 8 = Int64.ofNat (8 * n) := by
    rw [Nat.mul_comm, Int64.ofNat_mul]
    rfl
  show 0 ≤ Int64.ofNat n ∧ Int64.ofNat n ≤ Int64.ofNat n * 8
  rw [htotal, Int64.le_iff_toInt_le, Int64.le_iff_toInt_le, Int64.toInt_ofNat_of_lt (by omega),
    Int64.toInt_ofNat_of_lt hn]
  exact ⟨Int.natCast_nonneg n, by omega⟩

variable (image : Image)

/-- The section as it can be found in the file. -/
def storedSection : Section :=
  { image.toSection with preamble := image.preamble.stored image.version }

/-- The header that is found in the file. -/
def header : Header where
  version := image.version
  order := image.order
  format := if image.version = 1 then 0 else image.preamble.format
  native := image.native
  layout :=
    { names := image.columns.map Column.name
      types := image.columns.map Column.type
      widths := image.columns.map Column.width
      count := image.preamble.count.toInt.toNat
      firstId := image.preamble.firstId
      dataStart := image.sectionLength }
  total := image.preamble.total.toInt.toNat
  geometry :=
    if image.version = 1 then
      ⟨image.preamble.geometry.span, Triple.replicate 0, image.preamble.geometry.span⟩
    else image.preamble.geometry
  cosmology := image.preamble.cosmology

theorem storedSection_encode : image.storedSection.encode = image.toSection.encode := by
  have hwords : image.storedSection.preamble.words image.version =
      image.toSection.preamble.words image.version := image.preamble.words_stored image.version
  unfold Section.encode
  show _ ++ (image.storedSection.preamble.words image.version).flatMap _ ++ _ ++ _ ++ _ ++ _ ++
    _ ++ _ ++ _ = _
  rw [hwords]
  rfl

theorem toHeader_storedSection :
    image.storedSection.toHeader image.sectionLength = image.header := by
  unfold storedSection header Section.toHeader Preamble.stored
  split_ifs with hversion
  · rfl
  · rfl

namespace Proper

variable {image} (h : image.Proper)

include h

theorem widthsSuit :
    Section.WidthsSuit image.version (image.columns.map Column.name)
      (image.columns.map Column.width) := by
  unfold Section.WidthsSuit
  rcases h.version_known with hversion | hversion
  -- The first version stores no widths; those that follow from the names are the image's own.
  · rw [hversion, if_neg (by decide)]
    unfold Section.impliedWidths
    rw [List.map_map]
    apply List.map_congr_left
    intro column hcolumn
    have himplied := h.width_implied hversion column hcolumn
    rw [← List.contains_iff_mem] at himplied
    rw [Function.comp_apply]
    split_ifs with hname
    · exact himplied.mpr hname
    · exact (h.width_known column hcolumn).resolve_right fun hwidth => hname (himplied.mp hwidth)
  · rw [hversion, if_pos (by decide), List.length_map, List.length_map, List.forall_mem_map]
    exact ⟨rfl, h.width_known⟩

theorem storedSection_proper : image.storedSection.Proper where
  version_known := h.version_known
  preamble_suits := image.preamble.stored_suits image.version
  counted := h.counted.stored image.version
  native_short := h.native_short
  names_few := by
    show (image.columns.map Column.name).length < _
    rw [List.length_map]
    exact h.columns_few
  names_short := List.forall_mem_map.mpr h.names_short
  names_ne_empty := List.forall_mem_map.mpr h.names_ne_empty
  names_nodup := h.names_nodup
  types_length := by
    show (image.columns.map Column.type).length = (image.columns.map Column.name).length
    rw [List.length_map, List.length_map]
  widths_suit := h.widthsSuit

theorem length_storedSection : image.storedSection.encode.length = image.sectionLength := by
  have hnames : image.storedSection.names = image.columns.map Column.name := rfl
  rw [h.storedSection_proper.length_encode, hnames, List.length_map, List.map_map]
  show 8 + 8 * Preamble.wordCount image.version + (4 + image.native.length) + 4 +
    4 * image.columns.length +
      totalSize (image.columns.map fun column => (nameBytes column.name).length) +
      3 * image.columns.length +
      (if Section.storesWidths image.version then image.columns.length else 0) = _
  unfold sectionLength
  split_ifs with hversion
  · dsimp only
    omega
  · dsimp only
    omega

end Proper

end Image

/-! ## The columns -/

namespace Column

theorem length_encode (column : Column) (order : ByteOrder) :
    (column.encode order).length = column.values.length * column.type.size := by
  simp [encode, List.length_flatMap]

/-- A column converted to its own type has its values. -/
theorem convert_encode (column : Column) (order : ByteOrder) :
    Run.convert ⟨column.type, order, 1, 0, column.values.length⟩ column.type
      (column.encode order) = .ok column.values := by
  have hfits : column.values.length = 0 ∨
      ((column.values.length - 1) * 1 + 0 + 1) * column.type.size ≤ (column.encode order).length := by
    rw [column.length_encode order]
    rcases Nat.eq_zero_or_pos column.values.length with hnone | hsome
    · exact .inl hnone
    · exact .inr (Nat.mul_le_mul_right _ (by omega))
  rw [Run.convert_eq_ok column.type hfits]
  refine congrArg Except.ok (List.ext_getElem (by simp) fun i hi hvalue => ?_)
  simp only [List.getElem_map, List.getElem_range, Run.memberBytes, Run.step, Nat.max_self,
    Nat.mul_one, Nat.add_zero]
  have hbytes : elementBytes column.type.size (column.encode order) i =
      Element.encode order column.values[i] :=
    elementBytes_flatMap (Element.length_encode order) column.values hvalue
  rw [hbytes, Element.decode_encode, Element.convert_self]

end Column

namespace Image

namespace Proper

variable {image : Image} (h : image.Proper)

include h

theorem extent_eq {column : Nat} (hcolumn : column < image.columns.length) :
    image.header.layout.extent column = (image.columns[column].encode image.order).length := by
  have htype : image.header.layout.types[column]? = some image.columns[column].type := by
    simp [header, List.getElem?_eq_getElem hcolumn]
  have hwidth : image.header.layout.widths[column]? = some image.columns[column].width := by
    simp [header, List.getElem?_eq_getElem hcolumn]
  have hvalues := h.filled image.columns[column] (List.getElem_mem hcolumn)
  calc image.header.layout.extent column
      = image.columns[column].width.toNat * image.columns[column].type.size *
          image.preamble.count.toInt.toNat := Layout.extent_eq htype hwidth
    _ = image.columns[column].values.length * image.columns[column].type.size := by
        rw [hvalues, Nat.mul_comm _ image.preamble.count.toInt.toNat, Nat.mul_assoc]
    _ = (image.columns[column].encode image.order).length := by rw [Column.length_encode]

/-- The columns ahead of one take as many bytes as were written for them. -/
theorem extentBefore_eq {column : Nat} (hcolumn : column ≤ image.columns.length) :
    image.header.layout.extentBefore column =
      ((image.columns.take column).flatMap fun other => other.encode image.order).length := by
  induction column with
  | zero => rfl
  | succ column ih =>
      rw [Layout.extentBefore_succ, ih (Nat.le_of_lt hcolumn), h.extent_eq hcolumn,
        List.take_succ_eq_append_getElem hcolumn, List.flatMap_append, List.length_append,
        List.flatMap_cons, List.flatMap_nil, List.append_nil]

theorem columnsEnd_exact :
    image.header.layout.dataStart + image.header.layout.extentBefore image.header.layout.columns =
      image.encode.length := by
  have hcolumns : image.header.layout.columns = image.columns.length := List.length_map _
  calc image.header.layout.dataStart + image.header.layout.extentBefore image.header.layout.columns
      = image.sectionLength +
          (image.columns.flatMap fun column => column.encode image.order).length := by
        rw [hcolumns, h.extentBefore_eq (Nat.le_refl _), List.take_length]
        rfl
    _ = image.toSection.encode.length +
          (image.columns.flatMap fun column => column.encode image.order).length := by
        rw [← h.length_storedSection, storedSection_encode]
    _ = image.encode.length := by rw [encode, List.length_append]

theorem addressable : image.header.layout.Addressable := by
  unfold Layout.Addressable
  rw [h.columnsEnd_exact]
  exact h.storable

/-- The bytes at the place of a column are the ones that were written for it. -/
theorem columnBytes_eq {column : Nat} (hcolumn : column < image.columns.length) (rest : Bytes) :
    ((image.encode ++ rest).drop (image.header.layout.columnStart column)).take
        (image.header.layout.columnLength column) =
      image.columns[column].encode image.order := by
  have hinside : column < image.header.layout.columns := by
    show column < (image.columns.map Column.name).length
    rwa [List.length_map]
  have hstart : image.header.layout.dataStart = image.toSection.encode.length := by
    rw [← image.storedSection_encode, h.length_storedSection]
    rfl
  rw [h.addressable.columnStart_eq (Nat.le_of_lt hinside), h.addressable.columnLength_eq hinside,
    h.extent_eq hcolumn, h.extentBefore_eq (Nat.le_of_lt hcolumn), hstart, ← List.drop_drop]
  -- The file is the section, the columns ahead, the column itself and the rest.
  rw [encode, flatMap_eq_around (fun other => other.encode image.order) image.columns hcolumn]
  simp only [List.append_assoc]
  rw [List.drop_left, List.drop_left, List.take_left]

end Proper

/-- **What was written is read back.**  The file of a proper image, whatever follows it, has the
header of the image; its columns end where the file does, and hold the values of the image. -/
theorem ofBytes_encode (image : Image) (h : image.Proper) (rest : Bytes) :
    Header.ofBytes (image.encode ++ rest) = .ok image.header ∧
      image.header.layout.columnsEnd = image.encode.length ∧
        ∀ column (hcolumn : column < image.columns.length),
          Run.convert
              ⟨image.columns[column].type, image.order, 1, 0, image.columns[column].values.length⟩
              image.columns[column].type
              (((image.encode ++ rest).drop (image.header.layout.columnStart column)).take
                (image.header.layout.columnLength column)) =
            .ok image.columns[column].values := by
  refine ⟨?_, ?_, fun column hcolumn => ?_⟩
  · rw [Header.ofBytes_eq_ok_iff]
    refine ⟨image.storedSection, h.storedSection_proper, ?_, ?_⟩
    · rw [h.length_storedSection, image.toHeader_storedSection]
    · refine ⟨(image.columns.flatMap fun column => column.encode image.order) ++ rest, ?_, ?_⟩
      · rw [encode, image.storedSection_encode, List.append_assoc]
      · have hcolumns : image.header.layout.columns = image.columns.length := List.length_map _
        have hend := h.extentBefore_eq (Nat.le_refl _)
        rw [List.take_length] at hend
        rw [Layout.dataSize_eq_clamp, hcolumns, hend, List.length_append]
        exact Nat.le_trans (Nat.min_le_left _ _) (Nat.le_add_right _ _)
  · rw [h.addressable.columnsEnd_eq, h.columnsEnd_exact]
  · rw [h.columnBytes_eq hcolumn, Column.convert_encode]

/-- An image of the first version, with a vector column behind the identifiers. -/
def vectorImage : Image :=
  { ofCount 2 with
    version := 1
    order := .big
    columns := [⟨"id", 1, .u32, [7, 8]⟩, ⟨"x", 3, .f64, [1, 2, 3, 4, 5, 6]⟩] }

theorem ofBytes_encode_vectorImage :
    vectorImage.Proper ∧
      Header.ofBytes (vectorImage.encode ++ [0xff]) = .ok vectorImage.header ∧
        vectorImage.header.layout.columnsEnd = vectorImage.encode.length := by
  have hproper : vectorImage.Proper :=
    { version_known := by decide
      counted := counted_ofCount (by decide)
      native_short := by decide
      columns_few := by decide
      names_short := by decide
      names_ne_empty := by decide
      names_nodup := by decide
      width_known := by decide
      width_implied := by decide
      filled := by decide
      storable := by decide +kernel }
  have hread := ofBytes_encode vectorImage hproper [0xff]
  exact ⟨hproper, hread.1, hread.2.1⟩

end Image

end Snapshot
