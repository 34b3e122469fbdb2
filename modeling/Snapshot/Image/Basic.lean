import Snapshot.Header.Section

/-!
# File images

An `Image` is a snapshot file before it is written: the contents of its header
section and the values of its columns.  It may have any version, and its columns
any width and any number of values, so that images of malformed files can be
made as well.
-/

namespace Snapshot

/-- A column with its values, those of one particle after another. -/
structure Column where
  name : String
  width : UInt8
  type : ElementType
  values : List (Element type)
  deriving DecidableEq

/-- The contents of a file. -/
structure Image where
  version : UInt32
  order : ByteOrder
  preamble : Preamble
  native : Bytes
  columns : List Column

namespace Column

/-- The stored values. -/
def encode (column : Column) (order : ByteOrder) : Bytes :=
  column.values.flatMap (Element.encode order)

end Column

namespace Image

variable (image : Image)

/-- The image with one more column. -/
def addColumn (column : Column) : Image :=
  { image with columns := image.columns ++ [column] }

/-- The header section of the image. -/
def toSection : Section where
  version := image.version
  order := image.order
  preamble := image.preamble
  native := image.native
  names := image.columns.map Column.name
  types := image.columns.map Column.type
  widths := image.columns.map Column.width

/-- The bytes of the file. -/
def encode : Bytes :=
  image.toSection.encode ++ image.columns.flatMap fun column => column.encode image.order

/-- The length of the header section, from the sizes of its parts. -/
def sectionLength : Nat :=
  let perColumn := if Section.storesWidths image.version then 4 + 3 + 1 else 4 + 3
  let names := totalSize (image.columns.map fun column => (nameBytes column.name).length)
  8 + 8 * Preamble.wordCount image.version + 4 + image.native.length + 4 +
    image.columns.length * perColumn + names

end Image

end Snapshot
