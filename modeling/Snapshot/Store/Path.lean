import Snapshot.Text.Utf8

/-!
# Paths

A path is a text whose parts stand between slashes.  It is written as seen from a
directory: what leads to that directory stands in front of it (`Path.under`), unless
it is absolute, that is, begins with a slash.

Empty parts and single points stay where they are.  As paths are compared
(`Path.components`) neither of them counts, but for a single point at the very
beginning.  A point at the beginning of what is written does not count behind
the path of a directory, then, and does where nothing stands in front of it.
-/

namespace Snapshot

/-- The parts of a text between the places where a character stands. -/
def splitAll (c : Char) : List Char → List (List Char)
  | [] => [[]]
  | d :: rest =>
    match splitAll c rest with
    | [] => [[d]]
    | part :: parts => if d = c then [] :: part :: parts else (d :: part) :: parts

/-- What stands between two slashes of a path. -/
abbrev PathPart := List Char

namespace PathPart

/-- The part that stays in place. -/
def here : PathPart := ['.']

/-- The part names something: it neither is empty nor stays in place. -/
def leadsOn (part : PathPart) : Bool := part ≠ [] && part ≠ here

/-- The part that leads to the directory above. -/
def parent : PathPart := ['.', '.']

/-- The bytes of the part. -/
def size (part : PathPart) : Nat := (Utf8.encode part).length

end PathPart

/-- A path as it was written. -/
structure Path where
  written : String

namespace Path

variable (path : Path)

/-- All that stands between the slashes. -/
def steps : List PathPart := splitAll '/' path.written.toList

/-- The path does not begin at the directory. -/
def isAbsolute : Bool := path.written.toList.head? = some '/'

/-- The path behind the one of a directory, which ends with a slash. -/
def under (home : String) : Path :=
  if path.isAbsolute then path else ⟨home ++ path.written⟩

/-- The parts that lead on. -/
def leading : List PathPart := path.steps.filter PathPart.leadsOn

/-- The parts that lead from the directory on, or from the root, for which an empty
part stands. -/
def parts : List PathPart :=
  if path.isAbsolute then [] :: path.leading else path.leading

/-- What two paths have in common that are the same. -/
def components : List PathPart :=
  if path.steps.head? = some PathPart.here then PathPart.here :: path.leading else path.parts

/-- The path without what does not lead on. -/
def normalized : String :=
  (if path.isAbsolute then "/" else "") ++
    String.intercalate "/" (path.leading.map String.ofList)

/-- The bytes of the path. -/
def size : Nat := (Utf8.encode path.written.toList).length

/-- No path can have such a text. -/
def isImpossible : Bool :=
  path.written.toList.any fun c => c.toNat = 0

end Path

end Snapshot
