import Snapshot.Bytes

/-!
# UTF-8

`encode` writes characters as bytes.  `decode` reads bytes back one at a time
and keeps, inside a character, what its lead byte promised (`Pending`); a byte
that breaks the promise ends the reading with the place and length of the run
that could not be read.  `decodeLossy` puts the replacement character for each
such run instead and starts again at the byte that broke it.

A lead byte also bounds the byte after it, which rules out the longer spellings
of a character, the surrogates and everything past U+10FFFF.
-/

namespace Snapshot.Utf8

/-! ## Writing -/

/-- The byte of a character's code that continues a sequence: six bits of it. -/
def continuation (code : Nat) : UInt8 :=
  UInt8.ofNat (0x80 + code % 64)

/-- The one to four bytes of a character. -/
def encodeChar (c : Char) : Bytes :=
  let code := c.toNat
  if code < 0x80 then [UInt8.ofNat code]
  else if code < 0x800 then [UInt8.ofNat (0xc0 + code / 64), continuation code]
  else if code < 0x10000 then
    [UInt8.ofNat (0xe0 + code / 4096), continuation (code / 64), continuation code]
  else
    [UInt8.ofNat (0xf0 + code / 262144), continuation (code / 4096),
      continuation (code / 64), continuation code]

/-- The bytes of a text. -/
def encode (text : List Char) : Bytes :=
  text.flatMap encodeChar

/-! ## Reading -/

/-- A character that has begun but not ended. -/
structure Pending where
  /-- Where its lead byte stands. -/
  start : Nat
  /-- How many of its bytes have been read. -/
  seen : Nat
  /-- How many are still to come, less one. -/
  more : Nat
  /-- The bits collected so far. -/
  bits : Nat
  /-- The least byte that may come next. -/
  low : Nat
  /-- The greatest byte that may come next. -/
  high : Nat

/-- What a byte means where a character may begin. -/
inductive Opening where
  | char (c : Char)
  | lead (pending : Pending)
  | bad

/-- A lead byte announces one to three more bytes and bounds the next one. -/
def opening (start : Nat) (byte : UInt8) : Opening :=
  let b := byte.toNat
  if b < 0x80 then .char (Char.ofNat b)
  else if b < 0xc2 then .bad
  else if b < 0xe0 then .lead ⟨start, 1, 0, b - 0xc0, 0x80, 0xbf⟩
  else if b < 0xf0 then
    .lead ⟨start, 1, 1, b - 0xe0, if b = 0xe0 then 0xa0 else 0x80,
      if b = 0xed then 0x9f else 0xbf⟩
  else if b < 0xf5 then
    .lead ⟨start, 1, 2, b - 0xf0, if b = 0xf0 then 0x90 else 0x80,
      if b = 0xf4 then 0x8f else 0xbf⟩
  else .bad

namespace Pending

/-- The next byte is one that the lead byte allows. -/
def allows (p : Pending) (byte : UInt8) : Bool :=
  p.low ≤ byte.toNat && byte.toNat ≤ p.high

/-- The bits with those of one more byte. -/
def push (p : Pending) (byte : UInt8) : Nat :=
  p.bits * 64 + (byte.toNat - 0x80)

end Pending

/-- The run of bytes at which a text stops being UTF-8. -/
inductive Error where
  /-- `length` bytes from `start` on belong to no character. -/
  | invalid (length start : Nat)
  /-- The text ends inside the character that begins at `start`. -/
  | incomplete (start : Nat)
  deriving DecidableEq

/-- The error in words. -/
def Error.message : Error → String
  | invalid length start => s!"invalid utf-8 sequence of {length} bytes from index {start}"
  | incomplete start => s!"incomplete utf-8 byte sequence from index {start}"

/-- Reads on from byte number `place`, inside the given character or between two. -/
def decodeFrom (place : Nat) : Option Pending → Bytes → Except Error (List Char)
  | none, [] => .ok []
  | some p, [] => .error (.incomplete p.start)
  | none, byte :: rest =>
    match opening place byte with
    | .char c => (c :: ·) <$> decodeFrom (place + 1) none rest
    | .lead p => decodeFrom (place + 1) (some p) rest
    | .bad => .error (.invalid 1 place)
  | some p, byte :: rest =>
    if p.allows byte then
      match p.more with
      | 0 => (Char.ofNat (p.push byte) :: ·) <$> decodeFrom (place + 1) none rest
      | more + 1 =>
        decodeFrom (place + 1) (some ⟨p.start, p.seen + 1, more, p.push byte, 0x80, 0xbf⟩) rest
    else .error (.invalid p.seen p.start)

/-- The characters of a text, or where it stops being UTF-8. -/
def decode (bytes : Bytes) : Except Error (List Char) :=
  decodeFrom 0 none bytes

/-! ## Reading what is not UTF-8 -/

/-- What is shown for a run of bytes that cannot be read. -/
def replacement : Char := Char.ofNat 0xfffd

/-- The start of a character read leniently: the characters to show at once,
and the character left open. -/
def openingLossy (byte : UInt8) : List Char × Option Pending :=
  match opening 0 byte with
  | .char c => ([c], none)
  | .lead p => ([], some p)
  | .bad => ([replacement], none)

/-- Reads on leniently, inside the given character or between two. -/
def decodeLossyFrom : Option Pending → Bytes → List Char
  | none, [] => []
  | some _, [] => [replacement]
  | none, byte :: rest =>
    (openingLossy byte).1 ++ decodeLossyFrom (openingLossy byte).2 rest
  | some p, byte :: rest =>
    if p.allows byte then
      match p.more with
      | 0 => Char.ofNat (p.push byte) :: decodeLossyFrom none rest
      | more + 1 =>
        decodeLossyFrom (some ⟨p.start, p.seen + 1, more, p.push byte, 0x80, 0xbf⟩) rest
    else
      replacement :: (openingLossy byte).1 ++ decodeLossyFrom (openingLossy byte).2 rest

/-- The characters of a text, with one replacement character for each longest
run that begins no character. -/
def decodeLossy (bytes : Bytes) : List Char :=
  decodeLossyFrom none bytes

end Snapshot.Utf8
