import Snapshot.Read.Error

/-!
# Settings of a reader

A reader has a number of pooled workers, each of which reserves some scratch
space and may keep its last file open.
-/

namespace Snapshot

/-- The settings of a reader. -/
structure Settings where
  /-- Workers in the pool. -/
  workers : Nat
  /-- Scratch bytes that each worker reserves. -/
  scratch : Nat
  /-- Workers keep their last file open. -/
  keepsFiles : Bool
  deriving DecidableEq

namespace Settings

/-- One worker with a mebibyte of scratch space, which keeps its file open. -/
def standard : Settings := ⟨1, 1024 * 1024, true⟩

/-- A pool has at least one worker. -/
def check (settings : Settings) : Except ReadError Unit :=
  if settings.workers = 0 then .error .noWorkers else .ok ()

/-- The settings as a JSON object. -/
def toJson (settings : Settings) : String :=
  let members :=
    [("workers", toString settings.workers), ("scratch_capacity", toString settings.scratch),
      ("reuse_file_handles", toString settings.keepsFiles)]
  let texts := members.map fun (key, value) => s!"\"{key}\":{value}"
  "\x7b" ++ String.intercalate "," texts ++ "\x7d"

end Settings

end Snapshot
