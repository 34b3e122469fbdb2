import Snapshot.Header.Section

/-!
# Decoding a header

A decoder reads from a `Cursor`, which keeps two accounts.  `claimed` counts the
bytes that the layout has laid claim to so far and is held against the length
that the file is said to have; a claim past it is a truncation.  `rest` holds
the bytes that are really there and have not been read.  Every part of the
section is claimed before it is read, so where the stated length is not greater
than the real one no read can fail.

The last claim is for the column data.  Only its size is looked at: a header
depends on no byte behind its own section.
-/

namespace Snapshot

/-! ## Reading from a cursor -/

/-- The contents of a file, and the place where they are read on. -/
structure Stream where
  contents : Bytes
  place : Nat

/-- A stream at the start of its contents. -/
def Stream.rewind (stream : Stream) : Stream := { stream with place := 0 }

/-- The bytes from the present place on. -/
def Stream.unread (stream : Stream) : Bytes := stream.contents.drop stream.place

/-- The state of a decoder. -/
structure Cursor where
  /-- The bytes that have not been read. -/
  rest : Bytes
  /-- How far the layout reaches so far. -/
  claimed : Nat
  /-- The stated length of the file. -/
  limit : Nat

/-- Reads part of a header section, or says what is wrong with it. -/
abbrev Decoder := StateT Cursor (Except Fault)

namespace Decoder

/-- Lays claim to `need` more bytes. -/
def claim (need : Nat) : Decoder Unit := fun cursor =>
  let reach := cursor.claimed + need
  if reach ≤ cursor.limit then .ok ((), { cursor with claimed := reach })
  else .error (.truncated (clamp reach) cursor.limit)

/-- Reads `size` bytes. -/
def bytes (size : Nat) : Decoder Bytes := fun cursor =>
  if size ≤ cursor.rest.length then
    .ok (cursor.rest.take size, { cursor with rest := cursor.rest.drop size })
  else .error (.storage .endOfFile)

/-- Reads a word of `size` bytes. -/
def word (order : ByteOrder) (size : Nat) : Decoder Nat := fun cursor =>
  if size ≤ cursor.rest.length then
    .ok (order.decode (cursor.rest.take size), { cursor with rest := cursor.rest.drop size })
  else .error .endOfWord

/-- Reads the same thing several times. -/
def times {α : Type} (one : Decoder α) : Nat → Decoder (List α)
  | 0 => pure []
  | count + 1 => do
    let first ← one
    let others ← times one count
    pure (first :: others)

end Decoder

/-! ## The parts of the section -/

open Decoder

/-- The magic word tells the byte order of the file. -/
def decodeIdentity : Decoder (ByteOrder × UInt32) := do
  claim 8
  let found := ByteOrder.little.decode (← bytes 4)
  let order ←
    if found = magic.toNat then pure ByteOrder.little
    else if found = swappedMagic.toNat then pure ByteOrder.big
    else throw (.badMagic (UInt32.ofNat found))
  let version ← word order 4
  pure (order, UInt32.ofNat version)

/-- The preamble of a known version. -/
def decodePreamble (order : ByteOrder) (version : UInt32) : Decoder Preamble := do
  if version = 1 ∨ version = 2 then
    claim (8 * Preamble.wordCount version)
    let words ← times (word order 8) (Preamble.wordCount version)
    pure (Preamble.ofWords version (words.map UInt64.ofNat))
  else throw (.unknownVersion version)

/-- A file holds no negative number of particles, and no more than there are. -/
def checkCounts (preamble : Preamble) : Decoder Unit :=
  if preamble.count < 0 ∨ preamble.total < preamble.count then
    throw (.badCounts preamble.count preamble.total)
  else pure ()

/-- The header of the simulation code, behind its length. -/
def decodeNative (order : ByteOrder) : Decoder Bytes := do
  claim 4
  let length ← word order 4
  claim length
  bytes length

/-- The name that a run of bytes spells, if none of `earlier` is the same. -/
def decodeName (earlier : List String) (raw : Bytes) : Except Fault String :=
  match Utf8.decode raw with
  | .error error => .error (.badName (.notText error))
  | .ok text =>
    let name := String.ofList text
    if text = [] then .error (.badName .empty)
    else if name ∈ earlier then .error (.repeatedName name)
    else .ok name

/-- The names with the given lengths. -/
def decodeNames (earlier : List String) : List Nat → Decoder (List String)
  | [] => pure []
  | length :: lengths => do
    let raw ← bytes length
    let name ← decodeName earlier raw
    let names ← decodeNames (name :: earlier) lengths
    pure (name :: names)

/-- The type with a stored tag. -/
def decodeTag (raw : Bytes) : Except Fault ElementType :=
  match ElementType.all.find? fun type => type.tagBytes = raw with
  | some type => .ok type
  | none => .error (.unknownTag (String.ofList (Utf8.decodeLossy raw)))

/-- A stored type tag. -/
def decodeType : Decoder ElementType := do
  let raw ← bytes 3
  decodeTag raw

/-- A column has one component or three. -/
def checkWidths : List String → List UInt8 → Except Fault Unit
  | name :: names, width :: widths =>
    if width ≠ 1 ∧ width ≠ 3 then .error (.badWidth name width) else checkWidths names widths
  | _, _ => .ok ()

/-- The widths of the named columns. -/
def decodeWidths (version : UInt32) (names : List String) : Decoder (List UInt8) := do
  if Section.storesWidths version then
    claim names.length
    let widths ← bytes names.length
    checkWidths names widths
    pure widths
  else pure (Section.impliedWidths names)

/-- The whole header section. -/
def decodeSection : Decoder Section := do
  let (order, version) ← decodeIdentity
  let preamble ← decodePreamble order version
  checkCounts preamble
  let native ← decodeNative order
  claim 4
  let columns ← word order 4
  claim (4 * columns)
  let lengths ← times (word order 4) columns
  claim (totalSize lengths)
  let names ← decodeNames [] lengths
  claim (3 * columns)
  let types ← times decodeType columns
  let widths ← decodeWidths version names
  pure ⟨version, order, preamble, native, names, types, widths⟩

/-! ## The header -/

/-- The header that a section of a given length makes. -/
def Section.toHeader (s : Section) (length : Nat) : Header where
  version := s.version
  order := s.order
  format := s.preamble.format
  native := s.native
  layout :=
    { names := s.names
      types := s.types
      widths := s.widths
      count := s.preamble.count.toInt.toNat
      firstId := s.preamble.firstId
      dataStart := length }
  total := s.preamble.total.toInt.toNat
  geometry := s.preamble.geometry
  cosmology := s.preamble.cosmology

/-- The bytes that all columns together claim. -/
def Layout.dataSize (layout : Layout) : Nat :=
  clamp (totalSize ((List.range layout.columns).map layout.columnLength))

/-- The section and the room for the columns behind it. -/
def decodeHeader : Decoder Header := do
  let content ← decodeSection
  let header := content.toHeader (← get).claimed
  claim header.layout.dataSize
  pure header

namespace Header

/-- The header at the start of a stream, of a file that is said to be `length`
bytes long.  Wherever the stream stands, it is read from its start. -/
def decode (stream : Stream) (length : Nat) : Except Fault Header :=
  (decodeHeader.run ⟨stream.rewind.unread, 0, length⟩).map Prod.fst

/-- The header of the file with the given contents. -/
def ofBytes (bytes : Bytes) : Except Fault Header :=
  decode ⟨bytes, 0⟩ bytes.length

end Header

end Snapshot
