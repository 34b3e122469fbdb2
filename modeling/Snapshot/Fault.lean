import Snapshot.Text.Utf8
import Snapshot.Text.Quoted

/-!
# What can be wrong with a snapshot file or with a name asked of it

`Fault` lists the causes.  The first group is raised while a header is decoded,
the second while a variable expression is parsed or looked up in a header, and
the last by reading past the end of what is really there.
-/

namespace Snapshot

/-! ## Storage -/

/-- Why storage did not give what was asked of it. -/
inductive StorageFault where
  | endOfFile
  | notFound
  /-- A path goes on behind a file. -/
  | notADirectory
  | isADirectory
  /-- A name or a path has too many bytes. -/
  | nameTooLong
  | badArgument
  /-- What is there cannot be looked at as a whole. -/
  | noContents
  deriving DecidableEq

/-- The name of a storage fault. -/
def StorageFault.message : StorageFault → String
  | endOfFile => "UnexpectedEof"
  | notFound => "NotFound"
  | notADirectory => "NotADirectory"
  | isADirectory => "IsADirectory"
  | nameTooLong => "InvalidFilename"
  | badArgument => "InvalidInput"
  | noContents => "Uncategorized"

/-! ## The format -/

/-- The word at the start of every file, in the file's own byte order. -/
def magic : UInt32 := 0xbadf00d0

/-- The magic word of a big-endian file read with the bytes the other way. -/
def swappedMagic : UInt32 := 0xd000dfba

/-- The newest header version. -/
def newestVersion : UInt32 := 2

/-- Why a run of bytes cannot be the name of a column. -/
inductive NameFault where
  | notText (error : Utf8.Error)
  | empty
  deriving DecidableEq

/-- What is wrong with a snapshot file or an expression. -/
inductive Fault where
  /-- The file starts with another word than the magic one. -/
  | badMagic (found : UInt32)
  | unknownVersion (found : UInt32)
  | unknownTag (text : String)
  /-- A column has neither one nor three components. -/
  | badWidth (name : String) (width : UInt8)
  | badName (reason : NameFault)
  | repeatedName (name : String)
  /-- A count is negative, or greater than that of the whole simulation. -/
  | badCounts (count total : Int64)
  /-- The layout needs more bytes than there are. -/
  | truncated (needed available : Nat)
  /-- No column has the name. -/
  | noSuchVariable (name : String) (stored : List String)
  /-- The component is not one of the column's. -/
  | noSuchComponent (name : String) (index : Nat)
  /-- The text is not an expression. -/
  | badExpression (text : String)
  | storage (fault : StorageFault)
  /-- A word or a record goes on past the end of the bytes. -/
  | endOfWord
  deriving DecidableEq

/-- A word as eight hexadecimal digits. -/
def hexWord (word : UInt32) : String :=
  let digits := (hexDigits word.toNat).map Char.toUpper
  "0x" ++ String.ofList (List.replicate (8 - digits.length) '0' ++ digits)

/-- The reason in words. -/
def NameFault.message : NameFault → String
  | notText error => s!"not UTF-8: {error.message}"
  | empty => "empty name"

namespace Fault

/-- The fault in words. -/
def message : Fault → String
  | badMagic found =>
    s!"not a guppy file: expected magic {hexWord magic} or {hexWord swappedMagic}, " ++
      s!"got {hexWord found}"
  | unknownVersion found =>
    s!"unsupported guppy version {found} (this reader supports versions 1..={newestVersion})"
  | unknownTag text => s!"unknown type tag {quote text}"
  | badWidth name width => s!"variable '{name}' has invalid component width {width}"
  | badName reason => s!"invalid variable name: {reason.message}"
  | repeatedName name => s!"duplicate variable name '{name}'"
  | badCounts count total => s!"invalid particle counts: n = {count}, n_tot = {total}"
  | truncated needed available =>
    s!"truncated file: layout requires {needed} bytes, only {available} available"
  | noSuchVariable name stored =>
    s!"the file has no variable named '{name}'; it only contains " ++
      "[" ++ String.intercalate ", " stored ++ "]"
  | noSuchComponent name index =>
    s!"component index {index} is out of range for variable '{name}'"
  | badExpression text => s!"invalid variable expression {quote text}"
  | storage fault => fault.message
  | endOfWord => ""

/-- The expression is at fault, not the file. -/
def isResolution : Fault → Bool
  | noSuchVariable .. | noSuchComponent .. | badExpression .. => true
  | _ => false

end Fault

end Snapshot
