import Snapshot.Element.Run
import Snapshot.Expression.Plan
import Snapshot.Read.Error
import Snapshot.Record

/-!
# Output buffers

A read writes into a buffer that the caller provides, with one entry per
particle.  The type of the entries selects the conversion, and their shape has to
fit the expression: whole vector columns need triples, particle records need
records, and everything else needs single values.

`Buffer.fill` writes the values of one access.  For single values and triples
that is the whole buffer; for records it is one field of every record, named by
the position of the access in its plan.
-/

namespace Snapshot

/-- A caller's output buffer with its present contents. -/
inductive Buffer where
  | flat (type : ElementType) (values : List (Element type))
  | triples (type : ElementType) (values : List (Triple (Element type)))
  | records (values : List Record)
  deriving DecidableEq

/-! ## The fields of a record -/

/-- A field of a particle record. -/
inductive RecordField where
  | position (axis : Nat)
  | velocity (axis : Nat)
  | id
  deriving DecidableEq

namespace RecordField

/-- The field that an access fills, from its position in the plan. -/
def ofPlace (place : Nat) : RecordField :=
  if place < 3 then position place
  else if place < 6 then velocity (place - 3)
  else id

/-- The type of the values of a field. -/
def type : RecordField → ElementType
  | position _ | velocity _ => .f32
  | id => .u64

/-- The record with one field replaced. -/
def put : (field : RecordField) → Record → Element field.type → Record
  | position axis, record, value => { record with position := record.position.set axis value }
  | velocity axis, record, value => { record with velocity := record.velocity.set axis value }
  | id, record, value => { record with id := value }

end RecordField

namespace Buffer

/-- The number of particles that the buffer has room for. -/
def length : Buffer → Nat
  | flat _ values => values.length
  | triples _ values => values.length
  | records values => values.length

/-- The layout of the buffer. -/
def shape : Buffer → Shape
  | flat .. => .flat
  | triples .. => .triples
  | records _ => .records

/-- The type of the values, if they have only one. -/
def elementType? : Buffer → Option ElementType
  | flat type _ => some type
  | triples type _ => some type
  | records _ => none

/-- The buffer fits an expression over `particles` particles. -/
def check (buffer : Buffer) (expression : String) (expected : Shape) (particles : Nat) :
    Except ReadError Unit :=
  if buffer.shape ≠ expected then .error (.bufferShape expression expected buffer.shape)
  else if buffer.length ≠ particles then
    .error (.bufferLength expression particles buffer.length)
  else .ok ()

/-- The run of stored elements that holds one value of each of `count`
particles. -/
def runOf (access : Access) (order : ByteOrder) (count : Nat) : Run :=
  ⟨access.type, order, access.width, access.component.getD 0, count⟩

/-- One value of each of `count` particles. -/
def valuesOf (target : ElementType) (access : Access) (order : ByteOrder) (raw : Bytes)
    (count : Nat) : Except ReadError (List (Element target)) :=
  match access.source with
  | .implicitIds start => .ok (consecutive target start count)
  | .stored .. => ((runOf access order count).convert target raw).mapError .fault

/-- All components of each of `count` particles. -/
def triplesOf (target : ElementType) (access : Access) (order : ByteOrder) (raw : Bytes)
    (count : Nat) : Except ReadError (List (Triple (Element target))) :=
  match access.source with
  | .implicitIds _ => .error (.bufferShape identifierColumn .flat .triples)
  | .stored .. =>
    let run : Run := ⟨access.type, order, 1, 0, 3 * count⟩
    ((run.convert target raw).mapError .fault).map Triple.group

/-- The field that an access fills: identifiers that are counted up always go
to the field of that name. -/
def fieldOf (access : Access) (place : Nat) : RecordField :=
  match access.source with
  | .implicitIds _ => .id
  | .stored .. => .ofPlace place

/-- The buffer with the values of one access written into it.  `place` is the
position of the access in its plan, and `raw` holds the bytes of its column. -/
def fill (buffer : Buffer) (place : Nat) (access : Access) (order : ByteOrder) (raw : Bytes) :
    Except ReadError Buffer :=
  match buffer with
  | flat type values => (valuesOf type access order raw values.length).map (flat type)
  | triples type values => (triplesOf type access order raw values.length).map (triples type)
  | records values =>
    let field := fieldOf access place
    (valuesOf field.type access order raw values.length).map fun fresh =>
      records (values.zipWith field.put fresh)

end Buffer

end Snapshot
