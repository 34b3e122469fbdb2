import Snapshot.Report

/-!
# The command line

Shows the snapshot file that the first argument names, and the first values of
the expressions that follow.
-/

open Snapshot

/-- The contents of the file at a path, if it can be read. -/
def loadFile (path : String) : IO (Except StorageFault Bytes) := do
  try
    let contents ← IO.FS.readBinFile path
    pure (.ok contents.toList)
  catch _ => pure (.error .notFound)

/-- Runs the program. -/
def main (arguments : List String) : IO UInt32 := do
  let contents ← loadFile (arguments.headD "")
  let report := Report.report (fun _ => contents) arguments
  IO.print report.output
  IO.eprint report.errors
  pure report.code.toUInt32
