import Snapshot.Store.Directory

/-!
# The snapshot files of a directory

A directory of snapshots is named from outside, if at all, and may be missing.
Of its entries those with the extension of snapshot files count.  They are listed
in the order of their names, which is that of the bytes of the names.
-/

namespace Snapshot

/-- The extension of snapshot files. -/
def snapshotExtension : String := "gup"

/-- The extension of a file name: what follows its last point, unless the point
is the first character or there is none. -/
def extension? (name : String) : Option String :=
  let tail := name.toList.reverse.takeWhile (· ≠ '.')
  if name.length ≤ tail.length + 1 then none else some (String.ofList tail.reverse)

namespace Directory

variable (directory : Directory)

/-- The names at a place, each of them once. -/
def children : Place → List String
  | .inside names =>
    ((directory.namesBelow names).filterMap fun name =>
      (name.drop names.length).head?.map String.ofList).eraseDups
  | .outside => []

/-- The snapshot files at a path, none if it leads to no directory. -/
def snapshotsAt? (path : Path) : Option (List String) :=
  match directory.follow path with
  | .ok (.directory place) =>
    some (((directory.children place).filter fun name =>
      extension? name = some snapshotExtension).mergeSort fun left right => left ≤ right)
  | _ => none

/-- The snapshot files of a directory that may have been named. -/
def snapshots? (named : Option Path) : Option (List String) :=
  named.bind directory.snapshotsAt?

end Directory

end Snapshot
