import Snapshot.Bytes
import Snapshot.Settings.Basic
import Snapshot.Text.Json

/-!
# Settings as JSON

Settings are read from a JSON object that has them as members, in any order, or
from an array of them in their own order.  Settings that are missing keep their
standard values and unknown members are passed over, but a setting must not be
given twice and must have a value of its own type.
-/

namespace Snapshot

/-- The settings as they are given, each at most once. -/
structure PartialSettings where
  workers : Option Nat
  scratch : Option Nat
  keepsFiles : Option Bool

namespace PartialSettings

/-- No setting is given. -/
def empty : PartialSettings := ⟨none, none, none⟩

/-- The settings with standard values for what is not given. -/
def complete (given : PartialSettings) : Settings where
  workers := given.workers.getD Settings.standard.workers
  scratch := given.scratch.getD Settings.standard.scratch
  keepsFiles := given.keepsFiles.getD Settings.standard.keepsFiles

end PartialSettings

namespace Json

/-- A natural number that fits into a word. -/
def toWord? : Json → Option Nat
  | number (some value) => if value < wordBound 8 then some value else none
  | _ => none

/-- A truth value. -/
def toBool? : Json → Option Bool
  | bool value => some value
  | _ => none

end Json

namespace Settings

/-- Adds one member of an object. -/
def addMember (given : PartialSettings) (key : List Char) (value : Json) : Option PartialSettings :=
  if key = "workers".toList then
    if given.workers.isSome then none
    else value.toWord?.map fun workers => { given with workers := some workers }
  else if key = "scratch_capacity".toList then
    if given.scratch.isSome then none
    else value.toWord?.map fun scratch => { given with scratch := some scratch }
  else if key = "reuse_file_handles".toList then
    if given.keepsFiles.isSome then none
    else value.toBool?.map fun keepsFiles => { given with keepsFiles := some keepsFiles }
  else some given

/-- The settings in the members of an object. -/
def ofMembers (members : List (List JsonUnit × Json)) : Option PartialSettings :=
  members.foldlM
    (fun given (key, value) => do addMember given (← Json.text? key) value) .empty

/-- The settings in an array, in their own order. -/
def ofItems : List Json → Option PartialSettings
  | [] => some .empty
  | [workers] => do pure ⟨← workers.toWord?, none, none⟩
  | [workers, scratch] => do pure ⟨← workers.toWord?, ← scratch.toWord?, none⟩
  | [workers, scratch, keepsFiles] => do
    pure ⟨← workers.toWord?, ← scratch.toWord?, ← keepsFiles.toBool?⟩
  | _ => none

/-- The settings that a JSON text describes. -/
def ofJson? (text : String) : Option Settings := do
  let given ← match ← Json.parse text with
    | .object members => ofMembers members
    | .array items => ofItems items
    | _ => none
  pure given.complete

end Settings

end Snapshot
