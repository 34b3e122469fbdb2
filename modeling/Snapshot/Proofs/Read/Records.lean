import Snapshot.Proofs.Read.Simple

/-!
# What is written

`Header.written` is the buffer that a read is to leave, for every expression.  A
single selection fills it as `Header.filled` says; records are assembled by
`Header.recordAt`, each field from its own place in the file.

A record is filled field by field, and which field an access goes to follows from
its place in the plan.  The invariant of the loop says what each record has
become so far (`Header.assembled`); after the last part nothing is left of what
it was before (`Header.assembled_recordParts`).  So whatever was planned is
carried out to the end (`deliver_of_checks`).
-/

namespace Snapshot

/-! ## The buffer that is to be left -/

namespace Header

variable (h : Header) (bytes : Bytes)

/-- The record of particle `i`. -/
def recordAt (i : Nat) : Record :=
  let vector (name : String) : Triple (Element .f32) :=
    ⟨h.numberAt bytes .f32 name i 0, h.numberAt bytes .f32 name i 1, h.numberAt bytes .f32 name i 2⟩
  ⟨h.numberAt bytes .u64 identifierColumn i 0, vector positionColumn, vector velocityColumn⟩

/-- The buffer with all its entries replaced by what an expression reads. -/
def written (expression : Expression) (buffer : Buffer) : Buffer :=
  match expression, buffer with
  | .one selection, buffer => h.filled bytes selection buffer
  | .records, .records _ => .records ((List.range h.layout.count).map (h.recordAt bytes))
  | .records, buffer => buffer

/-- A record of particle `i` with one more field. -/
def withField (field : RecordField) (selection : Selection) (i : Nat) (record : Record) : Record :=
  field.put record (h.numberAt bytes field.type selection.name i (selection.component.getD 0))

/-- A record of particle `i` after the accesses of some selections, from position `place` of the
plan on. -/
def assembled (i : Nat) : Nat → List Selection → Record → Record
  | _, [], record => record
  | place, selection :: rest, record =>
    let field := Buffer.fieldOf (selection.access h.layout) place
    assembled i (place + 1) rest (h.withField bytes field selection i record)

end Header

/-! ## One value of each particle -/

/-- A checked selection asks for a component that its column has; without an index that is the
first one. -/
theorem component_lt_width {h : Header} (htabled : h.layout.Tabled) {selection : Selection}
    {u : Unit} (hcheck : selection.check h.layout = .ok u) {column : Nat} {width : UInt8}
    (hfind : h.layout.find? selection.name = some column)
    (hwidth : h.layout.widths[column]? = some width) :
    selection.component.getD 0 < width.toNat := by
  refine component_lt_of_triple htabled (fun index hselected => ?_) hfind hwidth
  obtain ⟨hindex, htriple⟩ := (Selection.check_eq_ok_iff.mp hcheck).2 index hselected
  exact ⟨hindex, (any_isTriple_iff htabled).mp htriple⟩

section

variable {h : Header} {bytes : Bytes} (hregular : h.layout.Regular)
  (hinside : h.layout.dataStart + h.layout.extentBefore h.layout.columns ≤ bytes.length)

include hregular hinside

/-- **One value of each particle** is there for every checked selection, whatever its buffer. -/
theorem valuesOf_access {selection : Selection} {u : Unit}
    (hcheck : selection.check h.layout = .ok u) {directory : Directory} {entry : Entry}
    (hcontents : directory.contents entry = bytes) (target : ElementType) :
    (((selection.access h.layout).source.bytes directory entry).bind fun raw =>
        Buffer.valuesOf target (selection.access h.layout) h.order raw h.layout.count) =
      .ok ((List.range h.layout.count).map fun i =>
        h.numberAt bytes target selection.name i (selection.component.getD 0)) := by
  cases hfind : h.layout.find? selection.name with
  | none =>
      have haccess : selection.access h.layout =
          ⟨.implicitIds h.layout.firstId, .u64, 1, none⟩ := by
        unfold Selection.access
        rw [hfind]
      rw [haccess]
      show Except.ok (consecutive target h.layout.firstId h.layout.count) = _
      unfold consecutive Header.numberAt
      simp only [hfind]
  | some column =>
      have hcolumn := Layout.lt_columns_of_find? hfind
      obtain ⟨type, width, htype, hwidth, -⟩ := hregular.exists_type_width hcolumn
      have hcomponent := component_lt_width hregular.toTabled hcheck hfind hwidth
      rw [access_eq_of_find? hfind htype hwidth]
      show (directory.rangeAt entry _ _).bind _ = _
      rw [rangeAt_column hregular hinside hcolumn hcontents]
      show (Run.convert ⟨type, h.order, width.toNat, selection.component.getD 0, h.layout.count⟩
        target (h.columnBytes bytes column)).mapError ReadError.fault = _
      rw [convert_component hregular hinside hfind htype hwidth target hcomponent]
      rfl

/-! ## Records -/

/-- One access replaces one field of every record. -/
theorem fill_records {directory : Directory} {entry : Entry}
    (hcontents : directory.contents entry = bytes) {selection : Selection}
    (hcheck : selection.check h.layout = .ok ()) (place : Nat) (values : Nat → Record) :
    ((selection.access h.layout).source.bytes directory entry).bind
        ((Buffer.records ((List.range h.layout.count).map values)).fill place
          (selection.access h.layout) h.order) =
      .ok (.records ((List.range h.layout.count).map fun i =>
        h.withField bytes (Buffer.fieldOf (selection.access h.layout) place) selection i
          (values i))) := by
  generalize hfield : Buffer.fieldOf (selection.access h.layout) place = field
  have hread := valuesOf_access hregular hinside hcheck hcontents field.type
  cases hbytes : (selection.access h.layout).source.bytes directory entry with
  | error error =>
      rw [hbytes] at hread
      cases hread
  | ok raw =>
      rw [hbytes] at hread
      show Except.map _ (Buffer.valuesOf (Buffer.fieldOf (selection.access h.layout) place).type
        _ _ _ ((List.range h.layout.count).map values).length) = _
      rw [hfield, List.length_map, List.length_range, show Buffer.valuesOf field.type
        (selection.access h.layout) h.order raw h.layout.count = _ from hread]
      show Except.ok (Buffer.records (List.zipWith field.put _ _)) = _
      rw [List.zipWith_map, List.zipWith_self]
      rfl

/-- **Records are filled field by field**, whichever checked selections the fields come from. -/
theorem deliver_records {directory : Directory} {entry : Entry}
    (hcontents : directory.contents entry = bytes) {selections : List Selection}
    (hchecks : ∀ selection ∈ selections, selection.check h.layout = .ok ()) (place : Nat)
    (values : Nat → Record) :
    deliver directory entry h.order place (selections.map (Selection.access h.layout))
        (.records ((List.range h.layout.count).map values)) =
      (.ok (), .records ((List.range h.layout.count).map fun i =>
        h.assembled bytes i place selections (values i))) := by
  induction selections generalizing place values with
  | nil => rfl
  | cons selection rest ih =>
      obtain ⟨hcheck, hrest⟩ := List.forall_mem_cons.mp hchecks
      rw [List.map_cons, deliver, fill_records hregular hinside hcontents hcheck]
      exact ih hrest (place + 1) _

omit hregular hinside in
/-- A column that is stored fills the field that its position in the plan says. -/
theorem fieldOf_access {selection : Selection} (hstored : selection.name ∈ h.layout.names)
    (place : Nat) :
    Buffer.fieldOf (selection.access h.layout) place = .ofPlace place := by
  cases hfind : h.layout.find? selection.name with
  | none => exact absurd hstored (Layout.find?_eq_none_iff.mp hfind)
  | some column =>
      unfold Selection.access
      rw [hfind]
      rfl

omit hregular hinside in
/-- The last part of a record fills its identifier, counted up or stored. -/
theorem fieldOf_identifier (layout : Layout) (place : Nat) (hplace : 6 ≤ place) :
    Buffer.fieldOf (Selection.access layout ⟨identifierColumn, none⟩) place = .id := by
  unfold Selection.access
  cases layout.find? identifierColumn with
  | none => rfl
  | some column =>
      show RecordField.ofPlace place = .id
      unfold RecordField.ofPlace
      rw [if_neg (by omega), if_neg (by omega)]

omit hregular hinside in
/-- **All fields are replaced**, whatever the record was before. -/
theorem assembled_recordParts
    (hchecks : ∀ selection ∈ recordParts, selection.check h.layout = .ok ()) (i : Nat)
    (record : Record) : h.assembled bytes i 0 recordParts record = h.recordAt bytes i := by
  have hstored : ∀ selection ∈ recordParts, selection.component ≠ none →
      selection.name ∈ h.layout.names := by
    intro selection hpart hcomponent
    obtain ⟨index, hindex⟩ := Option.ne_none_iff_exists'.mp hcomponent
    obtain ⟨-, htriple⟩ :=
      (Selection.check_eq_ok_iff.mp (hchecks selection hpart)).2 index hindex
    rw [Option.any_eq_true] at htriple
    obtain ⟨column, hfind, -⟩ := htriple
    exact List.mem_of_getElem? (Layout.find?_eq_some hfind)
  have hplaced : ∀ name axis, ⟨name, some axis⟩ ∈ recordParts → ∀ place,
      Buffer.fieldOf (Selection.access h.layout ⟨name, some axis⟩) place = .ofPlace place :=
    fun name axis hpart => fieldOf_access (hstored ⟨name, some axis⟩ hpart nofun)
  show h.assembled bytes i 0 [⟨positionColumn, some 0⟩, ⟨positionColumn, some 1⟩,
    ⟨positionColumn, some 2⟩, ⟨velocityColumn, some 0⟩, ⟨velocityColumn, some 1⟩,
    ⟨velocityColumn, some 2⟩, ⟨identifierColumn, none⟩] record = _
  simp only [Header.assembled, hplaced positionColumn 0 (by decide),
    hplaced positionColumn 1 (by decide), hplaced positionColumn 2 (by decide),
    hplaced velocityColumn 0 (by decide), hplaced velocityColumn 1 (by decide),
    hplaced velocityColumn 2 (by decide), fieldOf_identifier h.layout 6 (Nat.le_refl 6)]
  rfl

/-! ## Plans are carried out -/

/-- **What was checked is carried out**: no range and no conversion fails, and every entry of the
buffer is replaced.  The expression need not come from a text. -/
theorem deliver_of_checks {directory : Directory} {entry : Entry}
    (hcontents : directory.contents entry = bytes) {expression : Expression} {buffer : Buffer}
    (hchecks : ∀ selection ∈ expression.parts, selection.check h.layout = .ok ())
    (hshape : buffer.shape =
      shapeFor expression (expression.parts.map (Selection.access h.layout)))
    (hlength : buffer.length = h.layout.count) :
    deliver directory entry h.order 0 (expression.parts.map (Selection.access h.layout)) buffer =
      (.ok (), h.written bytes expression buffer) := by
  cases expression with
  | one selection =>
      have hcheck := hchecks selection List.mem_cons_self
      have hadmits := admits_of_check hregular.toTabled hcheck hshape hlength
      have hindex : ∀ index, selection.component = some index → index ≤ greatestComponent :=
        fun index hindex => ((Selection.check_eq_ok_iff.mp hcheck).2 index hindex).1
      have hfills := fills_of_admits hregular hinside hindex hadmits hcontents
      show deliver directory entry h.order 0 [selection.access h.layout] buffer = _
      unfold Access.Fills at hfills
      rw [deliver, hfills]
      rfl
  | records =>
      -- Nothing but a buffer of records has passed the check of its shape.
      cases buffer with
      | flat type values => exact nomatch hshape
      | triples type values => exact nomatch hshape
      | records values =>
          -- The old records, as a function of the number of the particle.
          let old (i : Nat) : Record := values.getD i ⟨0, .replicate 0, .replicate 0⟩
          have hold : (List.range h.layout.count).map old = values := by
            rw [← show values.length = h.layout.count from hlength]
            exact map_range_getD values _
          have hdelivered := deliver_records hregular hinside hcontents hchecks 0 old
          rw [hold] at hdelivered
          refine hdelivered.trans ?_
          simp only [Expression.parts, assembled_recordParts hchecks]
          rfl

/-- **What was planned is carried out.** -/
theorem deliver_of_planRead {directory : Directory} {entry : Entry}
    (hcontents : directory.contents entry = bytes) {text : String} {buffer : Buffer}
    {accesses : List Access} (hplan : planRead h.layout text buffer = .ok accesses) :
    ∃ expression, Expression.parse text = .ok expression ∧
      deliver directory entry h.order 0 accesses buffer =
        (.ok (), h.written bytes expression buffer) := by
  obtain ⟨expression, hparse, hchecks, rfl, hshape, hlength⟩ := planRead_eq_ok_iff.mp hplan
  exact ⟨expression, hparse,
    deliver_of_checks hregular hinside hcontents hchecks hshape hlength⟩

end

/-! ## Whole reads -/

section

variable {directory : Directory} {path : Path} {bytes : Bytes}
  (hfile : directory.fetch path = .ok bytes)

include hfile

/-- A read of a file that has no header does not succeed. -/
theorem exists_header_of_readOutcome_eq_ok {text : String} {buffer after : Buffer}
    (hread : readOutcome directory path text buffer = (.ok (), after)) :
    ∃ h, Header.ofBytes bytes = .ok h := by
  unfold Directory.fetch at hfile
  split at hfile
  · rename_i number hfollow
    cases hfile
    cases hdecode : Header.ofBytes (directory.contents (.file number)) with
    | ok h => exact ⟨h, rfl⟩
    | error fault =>
        have hopened : directory.openedAt path = .error (.fault fault) := by
          unfold Directory.openedAt Directory.headerAt
          rw [hfollow]
          show (Except.mapError ReadError.fault _ >>= _) = _
          rw [hdecode]
          rfl
        rw [readOutcome_of_unopened hopened] at hread
        cases hread
  · cases hfile
  · cases hfile

variable (hsize : bytes.length ≤ sizeLimit) {h : Header} (hdecode : Header.ofBytes bytes = .ok h)
  {text : String} {buffer : Buffer}

include hsize hdecode

/-- **What a read leaves** if it was planned. -/
theorem readOutcome_of_planned {accesses : List Access}
    (hplan : planRead h.layout text buffer = .ok accesses) :
    ∃ expression, Expression.parse text = .ok expression ∧
      readOutcome directory path text buffer = (.ok (), h.written bytes expression buffer) := by
  obtain ⟨hregular, hinside⟩ := Header.regular_of_ofBytes hsize hdecode
  obtain ⟨number, hopened, hcontents⟩ := openedAt_of_fetch hfile hdecode
  obtain ⟨expression, hparse, hdelivered⟩ := deliver_of_planRead hregular hinside hcontents hplan
  exact ⟨expression, hparse, (readOutcome_eq_deliver hopened hplan).trans hdelivered⟩

omit hsize in
/-- A read that was not planned fails for the same reason, and its buffer is as it was. -/
theorem readOutcome_of_unplanned {error : ReadError}
    (hplan : planRead h.layout text buffer = .error error) :
    readOutcome directory path text buffer = (.error error, buffer) := by
  obtain ⟨number, hopened, -⟩ := openedAt_of_fetch hfile hdecode
  exact readOutcome_of_refused hopened hplan

end

end Snapshot
