import Snapshot.Proofs.Header.StoredIds
import Snapshot.Proofs.Read.Acceptance

/-!
# Stored identifiers are read as counted ones

A file without identifiers and the same file with a column for them
(`Header.fileStoringIds`) cannot be told apart by reading.  Whatever is asked for,
the same is planned or refused (`planRead_storingIds`), where a refusal may list
the names of the columns and lists one more.  And what is planned leaves the same
numbers (`written_fileStoringIds`): every other column has its bytes, at its new
place, and identifiers are decoded from the words that they would be counted as.
-/

namespace Snapshot

/-! ## Refusals -/

/-- The fault, with other names of columns where it lists them. -/
def Fault.relist (names : List String) : Fault → Fault
  | .noSuchVariable name _ => .noSuchVariable name names
  | fault => fault

/-- The error, with other names of columns where it lists them. -/
def ReadError.relist (names : List String) : ReadError → ReadError
  | .fault cause => .fault (cause.relist names)
  | error => error

/-- A text that is no expression is refused whatever the file. -/
theorem relist_of_parse {text : String} {fault : Fault}
    (hparse : Expression.parse text = .error fault) (names : List String) :
    fault.relist names = fault := by
  rcases Expression.eq_of_parse_eq_error hparse with ⟨name, index, rfl⟩ | ⟨shown, rfl⟩
  · rfl
  · rfl

theorem relist_of_check {buffer : Buffer} {text : String} {expected : Shape} {particles : Nat}
    {error : ReadError} (hcheck : buffer.check text expected particles = .error error)
    (names : List String) : error.relist names = error := by
  unfold Buffer.check at hcheck
  split_ifs at hcheck with hshape hlength
  · cases hcheck
    rfl
  · cases hcheck
    rfl

theorem forM_mapError {ε δ α : Type} {check : α → Except ε Unit} {other : α → Except δ Unit}
    {f : ε → δ} {members : List α} (h : ∀ a ∈ members, other a = (check a).mapError f) :
    members.forM other = (members.forM check).mapError f := by
  induction members with
  | nil => rfl
  | cons a rest ih =>
      obtain ⟨hfirst, hrest⟩ := List.forall_mem_cons.mp h
      show (other a >>= fun _ => rest.forM other) = (check a >>= fun _ => rest.forM check).mapError f
      rw [hfirst, ih hrest]
      cases check a with
      | error error => rfl
      | ok u => rfl

/-! ## Plans -/

theorem planRead_of_parse {text : String} {expression : Expression}
    (hparse : Expression.parse text = .ok expression) (layout : Layout) (buffer : Buffer) :
    planRead layout text buffer =
      (expression.check layout).mapError .fault >>= fun _ =>
        buffer.check text (shapeFor expression (expression.parts.map (Selection.access layout)))
          layout.count >>= fun _ => pure (expression.parts.map (Selection.access layout)) := by
  unfold planRead
  rw [hparse]
  show (Except.mapError _ (expression.check layout >>= _) >>= _) = _
  cases expression.check layout with
  | error fault => rfl
  | ok u => rfl

namespace Layout

variable {layout : Layout} {position start : Nat} (htabled : layout.Tabled)
  (hposition : position ≤ layout.columns)

include htabled hposition

/-- Identifiers are single values, so the vector columns are the same. -/
theorem storesTriples_storingIds_iff {name : String} :
    (layout.storingIds position start).StoresTriples name ↔ layout.StoresTriples name := by
  constructor
  · intro h
    obtain ⟨other, hname, hwidth⟩ := h
    have hother : other ≠ position := by
      intro heq
      rw [heq, widths_storingIds_self htabled hposition] at hwidth
      cases hwidth
    obtain ⟨column, rfl⟩ := exists_shifted hother
    rw [names_storingIds_shifted] at hname
    rw [widths_storingIds_shifted] at hwidth
    exact ⟨column, hname, hwidth⟩
  · intro h
    obtain ⟨column, hname, hwidth⟩ := h
    exact ⟨shifted position column, (layout.names_storingIds_shifted position start column).trans hname,
      (layout.widths_storingIds_shifted position start column).trans hwidth⟩

variable (hstoring : (layout.storingIds position start).Tabled)

include hstoring

/-- A selection passes its check or not, as before. -/
theorem check_storingIds (selection : Selection) :
    selection.check (layout.storingIds position start) =
      (selection.check layout).mapError
        (Fault.relist (layout.names.insertIdx position identifierColumn)) := by
  have hmem : selection.name ∈ (layout.storingIds position start).names ↔
      selection.name = identifierColumn ∨ selection.name ∈ layout.names :=
    List.mem_insertIdx hposition
  have hunknown : ((layout.storingIds position start).find? selection.name).isNone ∧
      selection.name ≠ identifierColumn ↔
        (layout.find? selection.name).isNone ∧ selection.name ≠ identifierColumn := by
    rw [Option.isNone_iff_eq_none, Option.isNone_iff_eq_none, find?_eq_none_iff, find?_eq_none_iff,
      hmem]
    tauto
  have htriple : ((layout.storingIds position start).find? selection.name).any
      (layout.storingIds position start).isTriple =
        (layout.find? selection.name).any layout.isTriple := by
    rw [Bool.eq_iff_iff, any_isTriple_iff htabled, any_isTriple_iff hstoring]
    exact storesTriples_storingIds_iff htabled hposition
  unfold Selection.check
  dsimp only
  rw [htriple]
  by_cases h : (layout.find? selection.name).isNone ∧ selection.name ≠ identifierColumn
  · rw [if_pos h, if_pos (hunknown.mpr h)]
    rfl
  · rw [if_neg h, if_neg fun h' => h (hunknown.mp h')]
    cases selection.component with
    | none => rfl
    | some index =>
        dsimp only
        split_ifs with hindex
        · rfl
        · rfl

/-- An expression needs a buffer of the same shape. -/
theorem shapeFor_storingIds (expression : Expression) :
    shapeFor expression
        (expression.parts.map (Selection.access (layout.storingIds position start))) =
      shapeFor expression (expression.parts.map (Selection.access layout)) := by
  cases expression with
  | records => rfl
  | one selection =>
      have hreads : (selection.access (layout.storingIds position start)).readsTriples =
          (selection.access layout).readsTriples := by
        rw [Bool.eq_iff_iff, readsTriples_iff htabled, readsTriples_iff hstoring,
          storesTriples_storingIds_iff htabled hposition]
      show (if (selection.access (layout.storingIds position start)).readsTriples then
        Shape.triples else .flat) = if (selection.access layout).readsTriples then .triples else .flat
      rw [hreads]

/-- **The same is planned or refused**, with accesses that may lie elsewhere. -/
theorem planRead_storingIds (text : String) (buffer : Buffer) :
    ∃ accesses, planRead (layout.storingIds position start) text buffer =
      ((planRead layout text buffer).mapError
        (ReadError.relist (layout.names.insertIdx position identifierColumn))).map
          fun _ => accesses := by
  cases hparse : Expression.parse text with
  | error fault =>
      have hrefused : ∀ any, planRead any text buffer = .error (.fault fault) := by
        intro any
        unfold planRead
        rw [hparse]
        rfl
      rw [hrefused, hrefused]
      refine ⟨[], ?_⟩
      show Except.error (ReadError.fault fault) = .error (.fault (fault.relist _))
      rw [relist_of_parse hparse]
  | ok expression =>
      have hcheck : expression.check (layout.storingIds position start) =
          (expression.check layout).mapError
            (Fault.relist (layout.names.insertIdx position identifierColumn)) :=
        forM_mapError fun selection _ => check_storingIds htabled hposition hstoring selection
      refine ⟨expression.parts.map (Selection.access (layout.storingIds position start)), ?_⟩
      rw [planRead_of_parse hparse, planRead_of_parse hparse, hcheck,
        shapeFor_storingIds htabled hposition hstoring]
      cases expression.check layout with
      | error fault => rfl
      | ok u =>
          show (buffer.check text _ layout.count >>= _) =
            Except.map _ (Except.mapError _ (buffer.check text _ layout.count >>= _))
          cases hfits : buffer.check text
              (shapeFor expression (expression.parts.map (Selection.access layout))) layout.count with
          | error error =>
              show Except.error error = .error (error.relist _)
              rw [relist_of_check hfits]
          | ok u => rfl

end Layout

/-! ## Numbers -/

namespace Header

section

variable {bytes : Bytes} {h : Header} (hdecode : ofBytes bytes = .ok h) {position : Nat}
  (hposition : position ≤ h.layout.columns) (hids : identifierColumn ∉ h.layout.names)
  (hfew : h.layout.columns + 1 < wordBound 4)

include hdecode hposition hids hfew

theorem drop_placeOf_storingIds (column : Nat) (type : ElementType) (width i c : Nat) :
    (h.fileStoringIds bytes position).drop ((h.storingIds position).placeOf column type width i c) =
      (h.dataStoringIds bytes position).drop
        ((h.storingIds position).layout.extentBefore column + (i * width + c) * type.size) := by
  rw [placeOf, Nat.add_assoc, ← List.drop_drop,
    drop_dataStart_fileStoringIds hdecode hposition hids hfew]

variable (hsize : bytes.length ≤ sizeLimit)

include hsize

/-- The elements of every other column are at its new place. -/
theorem slice_shifted {column : Nat} {type : ElementType} {width : UInt8}
    (htype : h.layout.types[column]? = some type) (hwidth : h.layout.widths[column]? = some width)
    {i c : Nat} (hi : i < h.layout.count) (hc : c < width.toNat) :
    ((h.fileStoringIds bytes position).drop ((h.storingIds position).placeOf
        (shifted position column) type width.toNat i c)).take type.size =
      (bytes.drop (h.placeOf column type width.toNat i c)).take type.size := by
  have hinside := inside_storingIds hdecode hposition hsize
  rw [drop_placeOf_storingIds hdecode hposition hids hfew, placeOf]
  generalize hplace : (i * width.toNat + c) * type.size = place
  rcases Nat.lt_or_ge column position with hahead | hbehind
  · have hextent : (h.storingIds position).layout.extentBefore column =
        h.layout.extentBefore column :=
      Layout.extentBefore_storingIds_of_le _ (Nat.le_of_lt hahead)
    have hnext := h.layout.extentBefore_mono (Nat.succ_le_of_lt hahead)
    rw [Nat.succ_eq_add_one, Layout.extentBefore_succ] at hnext
    have helement := Layout.element_le_extent htype hwidth hi hc
    rw [shifted_of_lt hahead, hextent, slice_ahead hinside (by omega), Nat.add_assoc]
  · have hextent : (h.storingIds position).layout.extentBefore (column + 1) =
        h.layout.extentBefore column + 8 * h.layout.count :=
      Layout.extentBefore_storingIds_of_ge (tabled_of_ofBytes hdecode) hposition _ hbehind
    -- The bytes between the new column and this one are the same in both files.
    obtain ⟨between, hbetween⟩ := Nat.exists_eq_add_of_le (h.layout.extentBefore_mono hbehind)
    have hnew : h.layout.extentBefore position + between + 8 * h.layout.count + place =
        h.layout.extentBefore position + 8 * h.layout.count + (between + place) := by omega
    have hold : h.layout.dataStart + (h.layout.extentBefore position + between) + place =
        h.layout.dataStart + h.layout.extentBefore position + (between + place) := by omega
    rw [shifted_of_ge hbehind, hextent, hbetween, hnew, hold, drop_behind hinside]

/-- The identifiers are the words that they would be counted as. -/
theorem decode_storingIds {i : Nat} (hi : i < h.layout.count) :
    Element.decode .u64 h.order (((h.fileStoringIds bytes position).drop
        ((h.storingIds position).placeOf position .u64 1 i 0)).take 8) =
      Element.ofPattern .u64 (h.layout.firstId.toNat + i) := by
  have hinside := inside_storingIds hdecode hposition hsize
  have hextent : (h.storingIds position).layout.extentBefore position =
      h.layout.extentBefore position :=
    Layout.extentBefore_storingIds_of_le _ (Nat.le_refl _)
  have hlast : i * 8 + 8 ≤ 8 * h.layout.count := by omega
  have hword : (h.idBytes.drop (i * 8)).take 8 =
      Element.encode h.order (Element.ofPattern .u64 (h.layout.firstId.toNat + i)) := by
    have hmember : i < (List.range h.layout.count).length := by rwa [List.length_range]
    have hbytes := elementBytes_flatMap (fun i => Element.length_encode h.order
      (Element.ofPattern .u64 (h.layout.firstId.toNat + i))) (List.range h.layout.count) hmember
    rwa [List.getElem_range] at hbytes
  rw [drop_placeOf_storingIds hdecode hposition hids hfew, hextent]
  show Element.decode .u64 h.order (((h.dataStoringIds bytes position).drop
    (h.layout.extentBefore position + (i * 1 + 0) * 8)).take 8) = _
  rw [Nat.mul_one, Nat.add_zero, slice_ids hinside hlast, hword, Element.decode_encode]

/-- The same identifiers are read, counted or stored. -/
theorem numberAt_identifier (target : ElementType) {i : Nat} (hi : i < h.layout.count) :
    (h.storingIds position).numberAt (h.fileStoringIds bytes position) target identifierColumn i 0 =
      h.numberAt bytes target identifierColumn i 0 := by
  have htabled := tabled_of_ofBytes hdecode
  have hstoring := tabled_of_ofBytes (ofBytes_fileStoringIds hdecode hposition hids hfew hsize)
  have hfind : h.layout.find? identifierColumn = none := Layout.find?_eq_none_iff.mpr hids
  have hself : (h.storingIds position).layout.find? identifierColumn = some position :=
    hstoring.find?_eq_some_iff.mpr (Layout.names_storingIds_self hposition _)
  calc (h.storingIds position).numberAt (h.fileStoringIds bytes position) target identifierColumn i 0
      = (Element.decode .u64 h.order (((h.fileStoringIds bytes position).drop
          ((h.storingIds position).placeOf position .u64 1 i 0)).take 8)).convert target :=
        numberAt_eq_of_find? _ hself (Layout.types_storingIds_self htabled hposition _)
          (Layout.widths_storingIds_self htabled hposition _) target i 0
    _ = (Element.ofPattern .u64 (h.layout.firstId.toNat + i)).convert target := by
        rw [decode_storingIds hdecode hposition hids hfew hsize hi]
    _ = h.numberAt bytes target identifierColumn i 0 := by
        unfold numberAt
        rw [hfind]

/-- **The same number** is read of every particle, if the selection can be read at all. -/
theorem numberAt_fileStoringIds {selection : Selection} {u : Unit}
    (hcheck : selection.check h.layout = .ok u) (target : ElementType) {i : Nat}
    (hi : i < h.layout.count) :
    (h.storingIds position).numberAt (h.fileStoringIds bytes position) target selection.name i
        (selection.component.getD 0) =
      h.numberAt bytes target selection.name i (selection.component.getD 0) := by
  have htabled := tabled_of_ofBytes hdecode
  have hstoring := tabled_of_ofBytes (ofBytes_fileStoringIds hdecode hposition hids hfew hsize)
  cases hfind : h.layout.find? selection.name with
  | some column =>
      obtain ⟨type, width, htype, hwidth, -⟩ :=
        htabled.exists_type_width (Layout.lt_columns_of_find? hfind)
      have hshifted : (h.storingIds position).layout.find? selection.name =
          some (shifted position column) :=
        hstoring.find?_eq_some_iff.mpr
          ((h.layout.names_storingIds_shifted _ _ _).trans (Layout.find?_eq_some hfind))
      rw [numberAt_eq_of_find? bytes hfind htype hwidth,
        numberAt_eq_of_find? _ hshifted ((h.layout.types_storingIds_shifted _ _ _).trans htype)
          ((h.layout.widths_storingIds_shifted _ _ _).trans hwidth),
        slice_shifted hdecode hposition hids hfew hsize htype hwidth hi
          (component_lt_width htabled hcheck hfind hwidth)]
      rfl
  | none =>
      -- Nothing but identifiers can be read without a column, and they have no components.
      obtain ⟨hknown, hcomponent⟩ := Selection.check_eq_ok_iff.mp hcheck
      have hname : selection.name = identifierColumn :=
        hknown.resolve_left (Layout.find?_eq_none_iff.mp hfind)
      have hwhole : selection.component = none := by
        by_contra hsome
        obtain ⟨index, hindex⟩ := Option.ne_none_iff_exists'.mp hsome
        obtain ⟨-, htriple⟩ := hcomponent index hindex
        rw [hfind] at htriple
        cases htriple
      rw [hname, hwhole]
      exact numberAt_identifier hdecode hposition hids hfew hsize target hi

/-- The same three components are read of every particle from a vector column. -/
theorem vectorAt_fileStoringIds {name : String} (htriple : h.layout.StoresTriples name)
    (target : ElementType) {i : Nat} (hi : i < h.layout.count) :
    (⟨(h.storingIds position).numberAt (h.fileStoringIds bytes position) target name i 0,
      (h.storingIds position).numberAt (h.fileStoringIds bytes position) target name i 1,
      (h.storingIds position).numberAt (h.fileStoringIds bytes position) target name i 2⟩ :
        Triple (Element target)) =
      ⟨h.numberAt bytes target name i 0, h.numberAt bytes target name i 1,
        h.numberAt bytes target name i 2⟩ := by
  have haxis : ∀ axis, axis ≤ greatestComponent →
      (h.storingIds position).numberAt (h.fileStoringIds bytes position) target name i axis =
        h.numberAt bytes target name i axis := by
    intro axis hle
    have hcheck : Selection.check h.layout ⟨name, some axis⟩ = .ok () :=
      (Layout.check_component_iff (tabled_of_ofBytes hdecode)).mpr ⟨hle, htriple⟩
    exact numberAt_fileStoringIds hdecode hposition hids hfew hsize hcheck target hi
  rw [haxis 0 (by decide), haxis 1 (by decide), haxis 2 (by decide)]

/-- **The same buffer is left** by whatever was planned. -/
theorem written_fileStoringIds {text : String} {buffer : Buffer} {accesses : List Access}
    (hplan : planRead h.layout text buffer = .ok accesses) {expression : Expression}
    (hparse : Expression.parse text = .ok expression) :
    (h.storingIds position).written (h.fileStoringIds bytes position) expression buffer =
      h.written bytes expression buffer := by
  have htabled := tabled_of_ofBytes hdecode
  obtain ⟨found, hfound, hchecks, -, -⟩ := planRead_eq_ok_iff.mp hplan
  obtain rfl : found = expression := Except.ok.inj (hfound.symm.trans hparse)
  cases found with
  | one selection =>
      have hcheck := hchecks selection List.mem_cons_self
      cases buffer with
      | flat type values =>
          refine congrArg (Buffer.flat type) (List.map_congr_left fun i hi => ?_)
          exact numberAt_fileStoringIds hdecode hposition hids hfew hsize hcheck type
            (List.mem_range.mp hi)
      | triples type values =>
          -- Nothing but a vector column is read in triples.
          have htriple : h.layout.StoresTriples selection.name := by
            by_contra hsingle
            obtain ⟨hadmits, -⟩ := (planRead_one_eq_ok_iff htabled hparse).mp hplan
            exact nomatch hadmits.shape_flat (.inr hsingle)
          refine congrArg (Buffer.triples type) (List.map_congr_left fun i hi => ?_)
          exact vectorAt_fileStoringIds hdecode hposition hids hfew hsize htriple type
            (List.mem_range.mp hi)
      | records values => rfl
  | records =>
      cases buffer with
      | flat type values => rfl
      | triples type values => rfl
      | records values =>
          obtain ⟨hx, hv⟩ := (Layout.check_recordParts_iff htabled).mp hchecks
          refine congrArg Buffer.records (List.map_congr_left fun i hi => ?_)
          have hlt := List.mem_range.mp hi
          unfold recordAt
          dsimp only
          rw [numberAt_identifier hdecode hposition hids hfew hsize .u64 hlt,
            vectorAt_fileStoringIds hdecode hposition hids hfew hsize hx .f32 hlt,
            vectorAt_fileStoringIds hdecode hposition hids hfew hsize hv .f32 hlt]

end

end Header

end Snapshot
