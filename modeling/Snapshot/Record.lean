import Snapshot.Element.Basic
import Snapshot.Fault
import Snapshot.Triple

/-!
# Particle records

A record joins the identifier, the position and the velocity of one particle.
Stored records are 32 bytes long, follow each other without padding and are in
no way marked as such, so their reader has to know the byte order.
-/

namespace Snapshot

/-- One particle. -/
structure Record where
  id : Element .u64
  position : Triple (Element .f32)
  velocity : Triple (Element .f32)
  deriving DecidableEq

namespace Record

/-- The bytes that one record takes. -/
def size : Nat := 32

/-- The bytes of one record. -/
def encode (order : ByteOrder) (record : Record) : Bytes :=
  record.id.encode order ++
    (record.position.toList ++ record.velocity.toList).flatMap (Element.encode order)

/-- The bytes of a list of records. -/
def encodeAll (order : ByteOrder) (records : List Record) : Bytes :=
  records.flatMap (encode order)

/-- The record at the start of a run of bytes, if it is long enough. -/
def decode (order : ByteOrder) (bytes : Bytes) : Except Fault Record :=
  if bytes.length < size then .error .endOfWord
  else
    let number (place : Nat) : Element .f32 :=
      Element.decode .f32 order ((bytes.drop place).take 4)
    .ok
      { id := Element.decode .u64 order (bytes.take 8)
        position := ⟨number 8, number 12, number 16⟩
        velocity := ⟨number 20, number 24, number 28⟩ }

end Record

end Snapshot
