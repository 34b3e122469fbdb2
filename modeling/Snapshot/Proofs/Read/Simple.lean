import Snapshot.Proofs.Element.Run
import Snapshot.Proofs.Read.Delivery

/-!
# What a simple read means

A simple read is one of a single selection: a column, a component of a vector
column, or the identifiers.  `Header.filled` is the buffer that it is to leave.
Every number in it is named by its place in the file (`Header.numberAt`), and
neither plans nor runs occur there.

`readOutcome_simple` says that the read leaves this buffer, and that it succeeds
exactly where the layout admits the selection.  Because the columns of a decoded
layout lie in the file, nothing that was planned can fail later.
-/

namespace Snapshot

/-! ## The buffer that is to be left -/

namespace Header

variable (h : Header) (bytes : Bytes)

/-- The place of component `c` of particle `i` in a column with elements of the given type. -/
def placeOf (column : Nat) (type : ElementType) (width i c : Nat) : Nat :=
  h.layout.dataStart + h.layout.extentBefore column + (i * width + c) * type.size

/-- Component `c` of particle `i` in the column with a name.  Where no column has the name, the
number of the particle is counted up from the first identifier. -/
def numberAt (target : ElementType) (name : String) (i c : Nat) : Element target :=
  match h.layout.find? name with
  | some column =>
    let type := h.layout.types.getD column .u64
    let width := (h.layout.widths.getD column 1).toNat
    let stored := (bytes.drop (h.placeOf column type width i c)).take type.size
    (Element.decode type h.order stored).convert target
  | none => (Element.ofPattern .u64 (h.layout.firstId.toNat + i)).convert target

/-- All elements of all columns lie in the file. -/
def Covered : Prop :=
  ∀ column type width, h.layout.types[column]? = some type → h.layout.widths[column]? = some width →
    ∀ i c, i < h.layout.count → c < width.toNat →
      h.placeOf column type width.toNat i c + type.size ≤ bytes.length

/-- The buffer with all its entries replaced by the numbers of a selection. -/
def filled (selection : Selection) : Buffer → Buffer
  | .flat type _ =>
    .flat type ((List.range h.layout.count).map fun i =>
      h.numberAt bytes type selection.name i (selection.component.getD 0))
  | .triples type _ =>
    .triples type ((List.range h.layout.count).map fun i =>
      ⟨h.numberAt bytes type selection.name i 0, h.numberAt bytes type selection.name i 1,
        h.numberAt bytes type selection.name i 2⟩)
  | .records values => .records values

end Header

/-! ## Slices -/

theorem elementBytes_slice {size start length index : Nat} {bytes : Bytes}
    (hinside : (index + 1) * size ≤ length) :
    elementBytes size ((bytes.drop start).take length) index =
      (bytes.drop (start + index * size)).take size := by
  rw [Nat.succ_mul] at hinside
  rw [elementBytes, List.drop_take, List.take_take, List.drop_drop, Nat.min_eq_left (by omega)]

theorem Triple.group_map_range {α : Type} (f : Nat → α) (count : Nat) :
    Triple.group ((List.range (3 * count)).map f) =
      (List.range count).map fun i => ⟨f (i * 3 + 0), f (i * 3 + 1), f (i * 3 + 2)⟩ := by
  have hflatten : (List.range (3 * count)).map f =
      Triple.flatten ((List.range count).map fun i => ⟨f (i * 3 + 0), f (i * 3 + 1), f (i * 3 + 2)⟩) := by
    induction count with
    | zero => rfl
    | succ count ih =>
        rw [Nat.mul_succ, List.range_add, List.map_append, ih, List.range_succ, List.map_append]
        simp [Triple.flatten, Triple.toList, List.range_succ, Nat.mul_comm]
  rw [hflatten, Triple.group_flatten]

theorem mul_add_lt {i c width count : Nat} (hi : i < count) (hc : c < width) :
    i * width + c < width * count :=
  calc i * width + c
      < (i + 1) * width := by rw [Nat.succ_mul]; omega
    _ ≤ count * width := Nat.mul_le_mul_right _ hi
    _ = width * count := Nat.mul_comm _ _

/-- No element of a column reaches behind its end. -/
theorem Layout.element_le_extent {layout : Layout} {column : Nat} {type : ElementType}
    {width : UInt8} (htype : layout.types[column]? = some type)
    (hwidth : layout.widths[column]? = some width) {i c : Nat} (hi : i < layout.count)
    (hc : c < width.toNat) :
    (i * width.toNat + c) * type.size + type.size ≤ layout.extent column :=
  calc (i * width.toNat + c) * type.size + type.size
      = (i * width.toNat + c + 1) * type.size := (Nat.succ_mul _ _).symm
    _ ≤ width.toNat * layout.count * type.size := Nat.mul_le_mul_right _ (mul_add_lt hi hc)
    _ = layout.extent column := by rw [extent_eq htype hwidth, Nat.mul_right_comm]

/-! ## Columns in the file -/

/-- The bytes of a column. -/
def Header.columnBytes (h : Header) (bytes : Bytes) (column : Nat) : Bytes :=
  (bytes.drop (h.layout.columnStart column)).take (h.layout.columnLength column)

section

variable {h : Header} {bytes : Bytes} (hregular : h.layout.Regular)
  (hinside : h.layout.dataStart + h.layout.extentBefore h.layout.columns ≤ bytes.length)

include hregular hinside

theorem column_inside {column : Nat} (hcolumn : column < h.layout.columns) :
    h.layout.columnStart column + h.layout.columnLength column ≤ bytes.length := by
  have hnext := h.layout.extentBefore_mono (Nat.succ_le_of_lt hcolumn)
  rw [Nat.succ_eq_add_one, Layout.extentBefore_succ] at hnext
  rw [hregular.addressable.columnStart_eq (Nat.le_of_lt hcolumn),
    hregular.addressable.columnLength_eq hcolumn]
  omega

theorem Header.covered : h.Covered bytes := by
  intro column type width htype hwidth i c hi hc
  have hcolumn : column < h.layout.columns :=
    hregular.types_length ▸ (List.getElem?_eq_some_iff.mp htype).1
  have hroom := column_inside hregular hinside hcolumn
  rw [hregular.addressable.columnStart_eq (Nat.le_of_lt hcolumn),
    hregular.addressable.columnLength_eq hcolumn] at hroom
  have hend := Layout.element_le_extent htype hwidth hi hc
  unfold Header.placeOf
  omega

/-- Any run in a column is decoded from the places of its members in the file. -/
theorem convert_columnBytes {column : Nat} {type : ElementType} {width : UInt8}
    (hcolumn : column < h.layout.columns) (htype : h.layout.types[column]? = some type)
    (hwidth : h.layout.widths[column]? = some width) (target : ElementType)
    {stride component count : Nat} (hstride : 0 < stride)
    (hlast : ∀ i, i < count → i * stride + component < width.toNat * h.layout.count) :
    Run.convert ⟨type, h.order, stride, component, count⟩ target (h.columnBytes bytes column) =
      .ok ((List.range count).map fun i =>
        (Element.decode type h.order ((bytes.drop (h.placeOf column type stride i component)).take
          type.size)).convert target) := by
  have hstart := hregular.addressable.columnStart_eq (Nat.le_of_lt hcolumn)
  have hlength : h.layout.columnLength column = width.toNat * h.layout.count * type.size := by
    rw [hregular.addressable.columnLength_eq hcolumn, Layout.extent_eq htype hwidth,
      Nat.mul_right_comm]
  have hbytes : (h.columnBytes bytes column).length = h.layout.columnLength column := by
    have := column_inside hregular hinside hcolumn
    rw [Header.columnBytes, List.length_take, List.length_drop]
    omega
  have hmember : ∀ i, i < count →
      (i * stride + component + 1) * type.size ≤ h.layout.columnLength column := by
    intro i hi
    rw [hlength]
    exact Nat.mul_le_mul_right _ (hlast i hi)
  have hstep : Run.step ⟨type, h.order, stride, component, count⟩ = stride :=
    Nat.max_eq_left hstride
  rw [Run.convert_eq_ok]
  · refine congrArg Except.ok (List.map_congr_left fun i hi => ?_)
    dsimp only [Run.memberBytes]
    rw [hstep, Header.columnBytes, elementBytes_slice (hmember i (List.mem_range.mp hi)), hstart]
    rfl
  · rcases Nat.eq_zero_or_pos count with hnone | hsome
    · exact .inl hnone
    · refine .inr ?_
      rw [Run.needed, hstep, hbytes]
      exact hmember (count - 1) (Nat.sub_lt hsome Nat.one_pos)

/-! ## Filling -/

/-- What an access is given to fill the buffer with. -/
def Access.Fills (access : Access) (directory : Directory) (entry : Entry) (order : ByteOrder)
    (buffer filled : Buffer) : Prop :=
  (access.source.bytes directory entry).bind (buffer.fill 0 access order) = .ok filled

omit hregular hinside in
theorem storesTriples_iff (htabled : h.layout.Tabled) {name : String} {column : Nat} {width : UInt8}
    (hfind : h.layout.find? name = some column) (hwidth : h.layout.widths[column]? = some width) :
    h.layout.StoresTriples name ↔ width = 3 := by
  rw [← any_isTriple_iff htabled, hfind, Option.any_some, Layout.isTriple, hwidth,
    decide_eq_true_eq, Option.some_inj]

omit hregular hinside in
/-- A selection that asks for a component only where triples are stored asks for one that its
column has; without an index that is the first one. -/
theorem component_lt_of_triple (htabled : h.layout.Tabled) {selection : Selection}
    (hcomponent : ∀ index, selection.component = some index →
      index ≤ greatestComponent ∧ h.layout.StoresTriples selection.name) {column : Nat}
    {width : UInt8} (hfind : h.layout.find? selection.name = some column)
    (hwidth : h.layout.widths[column]? = some width) :
    selection.component.getD 0 < width.toNat := by
  cases hselected : selection.component with
  | none =>
      have hknown := htabled.width_known width (List.mem_of_getElem? hwidth)
      rcases hknown with rfl | rfl
      · decide
      · decide
  | some index =>
      obtain ⟨hindex, htriple⟩ := hcomponent index hselected
      rw [(storesTriples_iff htabled hfind hwidth).mp htriple]
      exact Nat.lt_succ_of_le hindex

omit hregular hinside in
theorem access_eq_of_find? {selection : Selection} {column : Nat} {type : ElementType}
    {width : UInt8} (hfind : h.layout.find? selection.name = some column)
    (htype : h.layout.types[column]? = some type) (hwidth : h.layout.widths[column]? = some width) :
    selection.access h.layout =
      ⟨.stored column (h.layout.columnStart column) (h.layout.columnLength column), type,
        width.toNat, selection.component⟩ := by
  unfold Selection.access
  rw [hfind]
  dsimp only
  rw [List.getD_eq_getElem?_getD, htype, Option.getD_some, List.getD_eq_getElem?_getD, hwidth,
    Option.getD_some]

omit hregular hinside in
theorem numberAt_eq_of_find? (bytes : Bytes) {name : String} {column : Nat} {type : ElementType}
    {width : UInt8} (hfind : h.layout.find? name = some column)
    (htype : h.layout.types[column]? = some type) (hwidth : h.layout.widths[column]? = some width)
    (target : ElementType) (i c : Nat) :
    h.numberAt bytes target name i c =
      (Element.decode type h.order ((bytes.drop (h.placeOf column type width.toNat i c)).take
        type.size)).convert target := by
  unfold Header.numberAt
  rw [hfind]
  dsimp only
  rw [List.getD_eq_getElem?_getD, htype, Option.getD_some, List.getD_eq_getElem?_getD, hwidth,
    Option.getD_some]

theorem rangeAt_column {column : Nat} (hcolumn : column < h.layout.columns)
    {directory : Directory} {entry : Entry} (hcontents : directory.contents entry = bytes) :
    directory.rangeAt entry (h.layout.columnStart column) (h.layout.columnLength column) =
      .ok (h.columnBytes bytes column) := by
  have hroom := column_inside hregular hinside hcolumn
  rw [← hcontents] at hroom
  rw [directory.rangeAt_eq_ok hroom, hcontents]
  rfl

/-- One component of each particle is decoded from the numbers of the column. -/
theorem convert_component {name : String} {column : Nat} {type : ElementType} {width : UInt8}
    (hfind : h.layout.find? name = some column) (htype : h.layout.types[column]? = some type)
    (hwidth : h.layout.widths[column]? = some width) (target : ElementType) {component : Nat}
    (hcomponent : component < width.toNat) :
    Run.convert ⟨type, h.order, width.toNat, component, h.layout.count⟩ target
        (h.columnBytes bytes column) =
      .ok ((List.range h.layout.count).map fun i =>
        h.numberAt bytes target name i component) := by
  simp only [numberAt_eq_of_find? bytes hfind htype hwidth]
  exact convert_columnBytes hregular hinside (Layout.lt_columns_of_find? hfind) htype hwidth target
    (Nat.zero_lt_of_lt hcomponent) fun i hi => mul_add_lt hi hcomponent

/-- All of a vector column, read as one run and grouped, is a triple of numbers for each
particle. -/
theorem group_convert_column {name : String} {column : Nat} {type : ElementType}
    (hfind : h.layout.find? name = some column) (htype : h.layout.types[column]? = some type)
    (hwidth : h.layout.widths[column]? = some 3) (target : ElementType) :
    ∃ run, Run.convert ⟨type, h.order, 1, 0, 3 * h.layout.count⟩ target
        (h.columnBytes bytes column) = .ok run ∧
      Triple.group run = (List.range h.layout.count).map fun i =>
        ⟨h.numberAt bytes target name i 0, h.numberAt bytes target name i 1,
          h.numberAt bytes target name i 2⟩ := by
  have hlast : ∀ i, i < 3 * h.layout.count → i * 1 + 0 < (3 : UInt8).toNat * h.layout.count := by
    intro i hi
    show i * 1 + 0 < 3 * h.layout.count
    omega
  refine ⟨_, convert_columnBytes hregular hinside (Layout.lt_columns_of_find? hfind) htype hwidth
    target Nat.one_pos hlast, ?_⟩
  rw [Triple.group_map_range]
  simp only [numberAt_eq_of_find? bytes hfind htype hwidth, Header.placeOf, Nat.mul_one,
    Nat.add_zero]
  rfl

theorem fills_stored {selection : Selection} {buffer : Buffer}
    (hadmits : h.layout.Admits selection buffer)
    (hindex : ∀ index, selection.component = some index → index ≤ greatestComponent) {column : Nat}
    (hfind : h.layout.find? selection.name = some column) {directory : Directory} {entry : Entry}
    (hcontents : directory.contents entry = bytes) :
    (selection.access h.layout).Fills directory entry h.order buffer
      (h.filled bytes selection buffer) := by
  have hcolumn := Layout.lt_columns_of_find? hfind
  obtain ⟨type, width, htype, hwidth, -⟩ := hregular.exists_type_width hcolumn
  unfold Access.Fills
  rw [access_eq_of_find? hfind htype hwidth]
  show (directory.rangeAt entry _ _).bind _ = _
  rw [rangeAt_column hregular hinside hcolumn hcontents]
  have hlength := hadmits.length_eq
  cases buffer with
  | flat target values =>
      have hcomponent := component_lt_of_triple hregular.toTabled
        (fun index hselected => ⟨hindex index hselected,
          hadmits.component_of_triple (hselected ▸ Option.some_ne_none index)⟩) hfind hwidth
      show ((Run.convert ⟨type, h.order, width.toNat, selection.component.getD 0, values.length⟩
        target (h.columnBytes bytes column)).mapError ReadError.fault).map (Buffer.flat target) = _
      rw [show values.length = h.layout.count from hlength,
        convert_component hregular hinside hfind htype hwidth target hcomponent]
      rfl
  | triples target values =>
      -- A buffer of triples is admitted for nothing but all of a vector column.
      obtain ⟨hwhole, htriple⟩ : selection.component = none ∧ h.layout.StoresTriples selection.name := by
        by_contra hnot
        exact nomatch hadmits.shape_flat (not_and_or.mp hnot)
      obtain rfl := (storesTriples_iff hregular.toTabled hfind hwidth).mp htriple
      obtain ⟨run, hrun, hgroup⟩ := group_convert_column hregular hinside hfind htype hwidth target
      show (((Run.convert ⟨type, h.order, 1, 0, 3 * values.length⟩ target
        (h.columnBytes bytes column)).mapError ReadError.fault).map Triple.group).map
          (Buffer.triples target) = _
      rw [show values.length = h.layout.count from hlength, hrun]
      show Except.ok (Buffer.triples target (Triple.group run)) = _
      rw [hgroup]
      rfl
  | records values =>
      by_cases hwhole : selection.component = none ∧ h.layout.StoresTriples selection.name
      · exact nomatch hadmits.shape_triples hwhole.1 hwhole.2
      · exact nomatch hadmits.shape_flat (not_and_or.mp hwhole)

end

theorem fills_implicit {h : Header} {selection : Selection} {buffer : Buffer}
    (hadmits : h.layout.Admits selection buffer)
    (hfind : h.layout.find? selection.name = none) (directory : Directory) (entry : Entry)
    (bytes : Bytes) :
    (selection.access h.layout).Fills directory entry h.order buffer
      (h.filled bytes selection buffer) := by
  have hstores : ¬h.layout.StoresTriples selection.name := by
    intro h
    rcases h with ⟨column, hname, -⟩
    exact Layout.find?_eq_none_iff.mp hfind (List.mem_of_getElem? hname)
  have haccess : selection.access h.layout = ⟨.implicitIds h.layout.firstId, .u64, 1, none⟩ := by
    unfold Selection.access
    rw [hfind]
  have hnumber : ∀ target i c, h.numberAt bytes target selection.name i c =
      (Element.ofPattern .u64 (h.layout.firstId.toNat + i)).convert target := by
    intro target i c
    unfold Header.numberAt
    rw [hfind]
  have hshape := hadmits.shape_flat (.inr hstores)
  have hlength := hadmits.length_eq
  unfold Access.Fills
  rw [haccess]
  cases buffer with
  | flat target values =>
      show Except.ok (Buffer.flat target (consecutive target h.layout.firstId values.length)) = _
      rw [show values.length = h.layout.count from hlength]
      unfold Header.filled
      simp only [hnumber]
      rfl
  | triples target values => exact nomatch hshape
  | records values => exact nomatch hshape

/-- An admitted selection leaves the buffer filled, whether its column is stored or not. -/
theorem fills_of_admits {h : Header} {bytes : Bytes} (hregular : h.layout.Regular)
    (hinside : h.layout.dataStart + h.layout.extentBefore h.layout.columns ≤ bytes.length)
    {selection : Selection}
    (hindex : ∀ index, selection.component = some index → index ≤ greatestComponent)
    {buffer : Buffer} (hadmits : h.layout.Admits selection buffer) {directory : Directory}
    {entry : Entry} (hcontents : directory.contents entry = bytes) :
    (selection.access h.layout).Fills directory entry h.order buffer
      (h.filled bytes selection buffer) := by
  cases hfind : h.layout.find? selection.name with
  | none => exact fills_implicit hadmits hfind directory entry bytes
  | some column => exact fills_stored hregular hinside hadmits hindex hfind hcontents

/-! ## The read -/

theorem openedAt_of_fetch {directory : Directory} {path : Path} {bytes : Bytes} {h : Header}
    (hfile : directory.fetch path = .ok bytes) (hdecode : Header.ofBytes bytes = .ok h) :
    ∃ number, directory.openedAt path = .ok (.file number, h) ∧
      directory.contents (.file number) = bytes := by
  obtain ⟨number, hfollow, rfl⟩ := Directory.follow_of_fetch hfile
  refine ⟨number, ?_, rfl⟩
  unfold Directory.openedAt Directory.headerAt
  rw [hfollow]
  show (Except.mapError ReadError.fault _ >>= _) = _
  rw [hdecode]
  rfl

/-- **What a simple read means.**  It succeeds exactly where the layout admits the selection and
the buffer, and then leaves the buffer filled. -/
theorem readOutcome_simple {directory : Directory} {path : Path} {bytes : Bytes} {h : Header}
    (hfile : directory.fetch path = .ok bytes) (hsize : bytes.length ≤ sizeLimit)
    (hdecode : Header.ofBytes bytes = .ok h) {text : String}
    (hsimple : Expression.parse text ≠ .ok .records) (buffer : Buffer) :
    ((readOutcome directory path text buffer).1 = .ok () ↔
      ∃ selection, Expression.parse text = .ok (.one selection) ∧
        h.layout.Admits selection buffer) ∧
    ∀ selection, Expression.parse text = .ok (.one selection) →
      h.layout.Admits selection buffer →
        readOutcome directory path text buffer = (.ok (), h.filled bytes selection buffer) := by
  obtain ⟨hregular, hinside⟩ := Header.regular_of_ofBytes hsize hdecode
  obtain ⟨number, hopened, hcontents⟩ := openedAt_of_fetch hfile hdecode
  have hread : ∀ selection, Expression.parse text = .ok (.one selection) →
      h.layout.Admits selection buffer →
        readOutcome directory path text buffer = (.ok (), h.filled bytes selection buffer) := by
    intro selection hparse hadmits
    have hfills := fills_of_admits hregular hinside
      (fun _ => Expression.component_le_of_parse hparse) hadmits hcontents
    have hplan := (planRead_one_eq_ok_iff hregular.toTabled hparse).mpr ⟨hadmits, rfl⟩
    rw [readOutcome_eq_deliver hopened hplan]
    dsimp only [deliver]
    unfold Access.Fills at hfills
    rw [hfills]
  refine ⟨⟨fun hok => ?_, ?_⟩, hread⟩
  -- A read that succeeds was planned, so the layout admits what was asked for.
  · cases hplan : planRead h.layout text buffer with
    | error error =>
        rw [readOutcome_of_refused hopened hplan] at hok
        cases hok
    | ok accesses =>
        obtain ⟨expression, hparse, -⟩ := planRead_eq_ok_iff.mp hplan
        cases expression with
        | records => exact absurd hparse hsimple
        | one selection =>
            exact ⟨selection, hparse, ((planRead_one_eq_ok_iff hregular.toTabled hparse).mp hplan).1⟩
  · intro h
    rcases h with ⟨selection, hparse, hadmits⟩
    rw [hread selection hparse hadmits]

end Snapshot
