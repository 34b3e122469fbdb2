import Snapshot.Bytes
import Snapshot.Fault
import Snapshot.Store.Path

/-!
# A directory of files

Names in a directory lead to files, and files are known by a number of their own.
Writing changes a file in place; replacing makes a new file and lets the name
lead to it; removing only takes the name away.  A reader that holds the number
of a file therefore goes on seeing it, changed or not, whatever happens to its
name.

A path is followed part by part, from the directory on if it is not absolute.  Only
a directory can be left or entered, so a file ends every path that goes on behind
it, be it by a slash alone.  Of what is outside the directory no more is known than
that there are directories.  The path of the directory itself counts where the
length of a path is limited, and where two paths are compared.

Every write moves the clock on and stamps the file, and a new file gets a number
that was never used before.  Two looks at a path that give the same identity
have seen the same contents.
-/

namespace Snapshot

/-! ## Places and entries -/

/-- A place that a path can lead to. -/
inductive Place where
  /-- The directory itself, or what is below it by the given names. -/
  | inside (names : List PathPart)
  /-- A directory above the directory or beside it. -/
  | outside
  deriving DecidableEq

namespace Place

/-- The directory above a place. -/
def parent : Place → Place
  | inside [] | outside => outside
  | inside names => inside names.dropLast

/-- The place of a name in a directory, none where names are not known. -/
def child? (place : Place) (name : PathPart) : Option Place :=
  match place with
  | inside names => some (inside (names ++ [name]))
  | outside => none

end Place

/-- What a path leads to. -/
inductive Entry where
  /-- The file with a number. -/
  | file (number : Nat)
  | directory (place : Place)
  deriving DecidableEq

/-- Why nothing more can be read of an entry behind its last byte.  A directory
has no bytes that could be read. -/
def Entry.endFault : Entry → StorageFault
  | file _ => .endOfFile
  | directory _ => .isADirectory

/-- A file and the time of its last write. -/
structure File where
  contents : Bytes
  modified : Nat

/-- What tells whether a path still leads to the entry seen before. -/
structure Identity where
  entry : Entry
  length : Nat
  modified : Nat
  deriving DecidableEq

/-! ## Directories -/

/-- Names, and the files that they led to at some time. -/
structure Directory where
  /-- What stands in front of a path that is not absolute: the path of the directory,
  with a slash behind it. -/
  home : String
  /-- The file that each name leads to. -/
  names : List (List PathPart × Nat)
  /-- All files there ever were, by their numbers. -/
  files : List File
  /-- The time of the last change. -/
  clock : Nat
  /-- The time at which a name was last made, moved or taken away. -/
  renamed : Nat

namespace Directory

/-- A directory without files. -/
def empty : Directory := ⟨"snapshots/", [], [], 0, 0⟩

variable (directory : Directory)

/-- A path behind the path of the directory. -/
def full (path : Path) : Path := path.under directory.home

/-- Two paths are the same path, however they were written. -/
def SamePath (left right : Path) : Prop :=
  (directory.full left).components = (directory.full right).components

instance (left right : Path) : Decidable (directory.SamePath left right) :=
  inferInstanceAs (Decidable (_ = _))

/-- Names that begin with the given ones and go on. -/
def namesBelow (names : List PathPart) : List (List PathPart) :=
  (directory.names.map Prod.fst).filter fun name =>
    names.isPrefixOf name && decide (names.length < name.length)

/-- What is at a place, if anything is. -/
def entryAt? : Place → Option Entry
  | .outside => some (.directory .outside)
  | .inside names =>
    match directory.names.lookup names with
    | some file => some (.file file)
    | none =>
      if names = [] || directory.namesBelow names ≠ [] then some (.directory (.inside names))
      else none

/-! ## Following a path -/

/-- The greatest number of bytes in a name. -/
def nameLimit : Nat := 255

/-- The greatest number of bytes in a path. -/
def pathLimit : Nat := 4095

/-- What the next part of a path leads to. -/
def step (entry : Entry) (part : PathPart) : Except StorageFault Entry :=
  match entry with
  | .file _ => .error .notADirectory
  | .directory place =>
    if !part.leadsOn then .ok entry
    else if part = PathPart.parent then .ok (.directory place.parent)
    else if nameLimit < part.size then .error .nameTooLong
    else match (place.child? part).bind directory.entryAt? with
      | some next => .ok next
      | none => .error .notFound

/-- The directory at which a path begins. -/
def origin (path : Path) : Place :=
  if path.isAbsolute then .outside else .inside []

/-- What a path leads to, or why it leads nowhere. -/
def follow (path : Path) : Except StorageFault Entry :=
  let full := directory.full path
  if full.isImpossible then .error .badArgument
  else if full.size = 0 then .error .notFound
  else if pathLimit < full.size then .error .nameTooLong
  else path.steps.foldlM directory.step (.directory (origin path))

/-! ## Reading -/

/-- The bytes of an entry. -/
def contents : Entry → Bytes
  | .file number => ((directory.files[number]?).map File.contents).getD []
  | .directory _ => []

/-- The time at which an entry was last changed. -/
def modified : Entry → Nat
  | .file number => ((directory.files[number]?).map File.modified).getD 0
  | .directory (.inside _) => directory.renamed
  | .directory .outside => 0

/-- The identity of an entry as it is now. -/
def identity (entry : Entry) : Identity where
  entry := entry
  length := (directory.contents entry).length
  modified := directory.modified entry

/-- The bytes of the file that a path leads to. -/
def fetch (path : Path) : Except StorageFault Bytes :=
  match directory.follow path with
  | .ok (.file number) => .ok (directory.contents (.file number))
  | .ok (.directory _) => .error .noContents
  | .error fault => .error fault

/-! ## Writing -/

/-- A path leads to a new file with the given contents. -/
def replace (path : Path) (contents : Bytes) : Directory :=
  { directory with
    names := (path.parts, directory.files.length) ::
      directory.names.filter fun entry => entry.1 ≠ path.parts
    files := directory.files ++ [⟨contents, directory.clock + 1⟩]
    clock := directory.clock + 1
    renamed := directory.clock + 1 }

/-- The file at a path gets the given contents; it is made if there is none. -/
def write (path : Path) (contents : Bytes) : Directory :=
  match directory.names.lookup path.parts with
  | none => directory.replace path contents
  | some file =>
    { directory with
      files := directory.files.set file ⟨contents, directory.clock + 1⟩
      clock := directory.clock + 1 }

/-- A path leads nowhere any more. -/
def remove (path : Path) : Directory :=
  { directory with
    names := directory.names.filter fun entry => entry.1 ≠ path.parts
    clock := directory.clock + 1
    renamed := directory.clock + 1 }

end Directory

end Snapshot
