import Snapshot.Element.Basic
import Snapshot.Triple

/-!
# The header of a snapshot file

A header names the columns of a file and says where each one lies.  `Layout` is
the part of it that decides this: the three lists of the variable table, the
number of particles, and the place where the column data begins.  Columns follow
each other without gaps, each as long as its particles, components and element
size make it.  Places and lengths are clamped to the greatest stored word, also
for a layout that was put together by hand and whose lists differ in length.

`Header` adds what describes the simulation: its geometry and its cosmology.
-/

namespace Snapshot

/-! ## The layout of the columns -/

/-- What decides where the values of a column lie. -/
structure Layout where
  /-- The names of the columns, in the order of their data. -/
  names : List String
  types : List ElementType
  /-- Components per particle. -/
  widths : List UInt8
  /-- Particles in the file. -/
  count : Nat
  /-- The identifier of the first particle, if no column stores identifiers. -/
  firstId : UInt64
  /-- The length of the header section. -/
  dataStart : Nat
  deriving DecidableEq

namespace Layout

variable (layout : Layout)

/-- The number of columns. -/
def columns : Nat := layout.names.length

/-- The position of the column with a name. -/
def find? (name : String) : Option Nat :=
  layout.names.findIdx? fun stored => stored = name

/-- A column holds three components per particle. -/
def isTriple (column : Nat) : Bool :=
  layout.widths[column]? = some 3

/-- The bytes that a column takes; none where the table has no type or width. -/
def columnLength (column : Nat) : Nat :=
  match layout.types[column]?, layout.widths[column]? with
  | some type, some width => clamp (width.toNat * type.size * layout.count)
  | _, _ => 0

/-- The place at which a column begins. -/
def columnStart (column : Nat) : Nat :=
  (List.range (min column layout.columns)).foldl
    (fun place before => clamp (place + layout.columnLength before)) layout.dataStart

/-- The place at which the last column ends. -/
def columnsEnd : Nat := layout.columnStart layout.columns

end Layout

/-! ## The header -/

/-- The slab of the simulation volume that a file covers. -/
structure Geometry where
  span : Triple Int64
  origin : Triple Int64
  /-- The size of the whole decomposition. -/
  totalSpan : Triple Int64
  deriving DecidableEq

/-- The parameters of the simulation, as stored patterns. -/
structure Cosmology where
  redshift : Element .f64
  omegaMatter : Element .f64
  omegaLambda : Element .f64
  hubble : Element .f64
  /-- The width of the box. -/
  boxSize : Element .f64
  particleMass : Element .f64
  deriving DecidableEq

/-- The columns that the first version of the format stores as vectors. -/
def impliedTripleNames : List String := ["x", "v"]

/-- A decoded header. -/
structure Header where
  version : UInt32
  order : ByteOrder
  /-- A code that the writer chose. -/
  format : UInt64
  /-- The header of the simulation code, as it was. -/
  native : Bytes
  layout : Layout
  /-- Particles in the whole simulation. -/
  total : Nat
  geometry : Geometry
  cosmology : Cosmology
  deriving DecidableEq

end Snapshot
