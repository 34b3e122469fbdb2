import Snapshot.Header.Basic
import Snapshot.Fault

/-!
# The header section as it is stored

A file begins with the magic word and a version.  A preamble of eight-byte words
follows, whose number depends on the version, then the header of the simulation
code, and last the variable table: the lengths of the names, the names, the type
tags and, from version 2 on, one width a column.  All words have the byte order
in which the magic word is written.

`Section` holds these parts and `Section.encode` writes them down.  Nothing is
padded and nothing is written twice.
-/

namespace Snapshot

/-! ## The preamble -/

/-- The fixed part of the header section. -/
structure Preamble where
  format : UInt64
  count : Int64
  total : Int64
  geometry : Geometry
  firstId : UInt64
  cosmology : Cosmology
  deriving DecidableEq

namespace Triple

/-- The stored words of three signed numbers. -/
def words (t : Triple Int64) : List UInt64 := t.toList.map Int64.toUInt64

/-- The three signed numbers in a list of words from a given position on. -/
def ofWords (words : List UInt64) (first : Nat) : Triple Int64 :=
  ⟨(words.getD first 0).toInt64, (words.getD (first + 1) 0).toInt64,
    (words.getD (first + 2) 0).toInt64⟩

end Triple

namespace Cosmology

/-- The stored words of the parameters. -/
def words (c : Cosmology) : List UInt64 :=
  [c.redshift.toWord, c.omegaMatter.toWord, c.omegaLambda.toWord, c.hubble.toWord,
    c.boxSize.toWord, c.particleMass.toWord]

/-- The parameters in a list of words from a given position on. -/
def ofWords (words : List UInt64) (first : Nat) : Cosmology :=
  let parameter (i : Nat) := Element.ofWord (words.getD (first + i) 0)
  ⟨parameter 0, parameter 1, parameter 2, parameter 3, parameter 4, parameter 5⟩

end Cosmology

namespace Preamble

/-- The number of words in the preamble of a version. -/
def wordCount (version : UInt32) : Nat :=
  if version = 1 then 12 else 19

/-- The words of the preamble.  The first version stores no format code and, of
the geometry, the span alone. -/
def words (p : Preamble) (version : UInt32) : List UInt64 :=
  let counts := [p.count.toUInt64, p.total.toUInt64]
  let rest := p.firstId :: p.cosmology.words
  if version = 1 then counts ++ p.geometry.span.words ++ rest
  else
    p.format :: counts ++ p.geometry.span.words ++ p.geometry.origin.words ++
      p.geometry.totalSpan.words ++ rest

/-- The preamble with given words.  In the first version the slab is the whole
decomposition. -/
def ofWords (version : UInt32) (words : List UInt64) : Preamble :=
  if version = 1 then
    let span := Triple.ofWords words 2
    { format := 0
      count := (words.getD 0 0).toInt64
      total := (words.getD 1 0).toInt64
      geometry := ⟨span, Triple.replicate 0, span⟩
      firstId := words.getD 5 0
      cosmology := Cosmology.ofWords words 6 }
  else
    { format := words.getD 0 0
      count := (words.getD 1 0).toInt64
      total := (words.getD 2 0).toInt64
      geometry := ⟨Triple.ofWords words 3, Triple.ofWords words 6, Triple.ofWords words 9⟩
      firstId := words.getD 12 0
      cosmology := Cosmology.ofWords words 13 }

end Preamble

/-! ## The section -/

/-- The contents of a header section. -/
structure Section where
  version : UInt32
  order : ByteOrder
  preamble : Preamble
  native : Bytes
  names : List String
  types : List ElementType
  widths : List UInt8
  deriving DecidableEq

/-- The bytes of a name. -/
def nameBytes (name : String) : Bytes := Utf8.encode name.toList

/-- The bytes of a type tag. -/
def ElementType.tagBytes (type : ElementType) : Bytes := Utf8.encode type.tag.toList

namespace Section

variable (s : Section)

/-- Whether the widths are stored, or follow from the names. -/
def storesWidths (version : UInt32) : Bool := 2 ≤ version

/-- The widths of columns whose table does not store them. -/
def impliedWidths (names : List String) : List UInt8 :=
  names.map fun name => if impliedTripleNames.contains name then 3 else 1

/-- A stored word of four bytes. -/
def word (word : Nat) : Bytes := s.order.encode 4 word

/-- The bytes of the section. -/
def encode : Bytes :=
  s.word magic.toNat ++ s.word s.version.toNat ++
    (s.preamble.words s.version).flatMap (fun word => s.order.encode 8 word.toNat) ++
    s.word s.native.length ++ s.native ++
    s.word s.names.length ++ s.names.flatMap (fun name => s.word (nameBytes name).length) ++
    s.names.flatMap nameBytes ++ s.types.flatMap ElementType.tagBytes ++
    (if storesWidths s.version then s.widths else [])

end Section

/-- The section in which a header is stored. -/
def Header.toSection (h : Header) : Section where
  version := h.version
  order := h.order
  preamble :=
    { format := h.format
      count := Int64.ofNat h.layout.count
      total := Int64.ofNat h.total
      geometry := h.geometry
      firstId := h.layout.firstId
      cosmology := h.cosmology }
  native := h.native
  names := h.layout.names
  types := h.layout.types
  widths := h.layout.widths

end Snapshot
