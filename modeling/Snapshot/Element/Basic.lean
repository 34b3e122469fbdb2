import Snapshot.Bytes
import Snapshot.Number.Binary

/-!
# Elements

A column stores elements of one of four types.  An element is a bit pattern of
its type's size; what the pattern means, a natural number or a floating-point
value, is a matter of the type.  One codec therefore serves all four types, and
it is inverse to itself on every pattern, whatever floating-point value the
pattern stands for.

`Element.convert` goes from any type to any other.  Between integer types it
keeps the low bits; from an integer to a float and between floats it rounds to
nearest, ties to even; from a float to an integer it drops the fraction and
clamps, and what is not a number becomes zero.
-/

namespace Snapshot

/-- The type of the elements of a column. -/
inductive ElementType where
  | u32
  | u64
  | f32
  | f64
  deriving DecidableEq

namespace ElementType

/-- All element types. -/
def all : List ElementType := [u32, u64, f32, f64]

/-- The three-character tag of a type. -/
def tag : ElementType → String
  | u32 => "u32"
  | u64 => "u64"
  | f32 => "f32"
  | f64 => "f64"

/-- The bytes that one element takes. -/
def size : ElementType → Nat
  | u32 | f32 => 4
  | u64 | f64 => 8

/-- The type with a given tag. -/
def ofTag? (text : String) : Option ElementType :=
  all.find? fun type => type.tag = text

/-- The floating-point layout of a type, none for the integer types. -/
def format? : ElementType → Option FloatFormat
  | u32 | u64 => none
  | f32 => some binary32
  | f64 => some binary64

theorem size_pos (type : ElementType) : 0 < type.size := by
  cases type <;> decide

end ElementType

/-- A stored element: a pattern of as many bits as the type has. -/
abbrev Element (type : ElementType) := BitVec (8 * type.size)

namespace Element

variable {type : ElementType}

/-- The element with a given pattern, cut down to the type's size. -/
def ofPattern (type : ElementType) (pattern : Nat) : Element type :=
  BitVec.ofNat (8 * type.size) pattern

/-- The word with the pattern of a double. -/
def toWord (e : Element .f64) : UInt64 := UInt64.ofBitVec e

/-- The double with the pattern of a word. -/
def ofWord (word : UInt64) : Element .f64 := word.toBitVec

@[simp] theorem ofWord_toWord (e : Element .f64) : ofWord (toWord e) = e := rfl

@[simp] theorem toWord_ofWord (word : UInt64) : toWord (ofWord word) = word := rfl

/-- The bytes of an element. -/
def encode (order : ByteOrder) (e : Element type) : Bytes :=
  order.encode type.size e.toNat

/-- The element that a run of bytes stores. -/
def decode (type : ElementType) (order : ByteOrder) (bytes : Bytes) : Element type :=
  ofPattern type (order.decode bytes)

@[simp] theorem length_encode (order : ByteOrder) (e : Element type) :
    (encode order e).length = type.size := by
  simp [encode]

/-- What was written reads back, bit for bit. -/
@[simp] theorem decode_encode (order : ByteOrder) (e : Element type) :
    decode type order (encode order e) = e := by
  have bound : e.toNat < wordBound type.size := by
    have limit := e.isLt
    rwa [Nat.pow_mul] at limit
  apply BitVec.eq_of_toNat_eq
  simp [decode, encode, ofPattern, ByteOrder.decode_encode, Nat.mod_eq_of_lt bound]

/-- The floating-point value of an element; an integer counts as itself. -/
def value (e : Element type) : FloatValue :=
  match type.format? with
  | none => .finite false (e.toNat * unitsPerOne)
  | some format => format.decode e.toNat

/-- The element of type `target` for a stored element. -/
def convert (target : ElementType) (e : Element type) : Element target :=
  if type = target then ofPattern target e.toNat
  else match type.format?, target.format? with
    | none, none => ofPattern target e.toNat
    | _, some format => ofPattern target (format.encode e.value)
    | some format, none =>
      ofPattern target ((format.decode e.toNat).truncate (wordBound target.size - 1))

/-- An element is unchanged by conversion to its own type. -/
@[simp] theorem convert_self (e : Element type) : e.convert type = e := by
  simp [convert, ofPattern]

end Element

end Snapshot
