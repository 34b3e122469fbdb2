import Mathlib.Tactic.SplitIfs
import Snapshot.Store.Directory

/-!
# Paths behind the path of a directory

A path that is not absolute stands behind the path of its directory, which a slash ends.  The two
texts are then cut into parts one after the other (`splitAll_append`), so what such a path is
depends on the parts of it that lead on, and on nothing else (`Directory.samePath_iff`).
-/

namespace Snapshot

/-- There is always a part, if only an empty one. -/
theorem splitAll_ne_nil (c : Char) (text : List Char) : splitAll c text ≠ [] := by
  cases text with
  | nil => exact nofun
  | cons d rest =>
      unfold splitAll
      split
      · exact nofun
      · split_ifs <;> exact nofun

theorem splitAll_cons {c d : Char} {text part : List Char} {parts : List (List Char)}
    (hsplit : splitAll c text = part :: parts) :
    splitAll c (d :: text) = if d = c then [] :: part :: parts else (d :: part) :: parts := by
  rw [splitAll, hsplit]

/-- A text is cut at a separator into the parts before it and those behind it. -/
theorem splitAll_append (c : Char) (before after : List Char) :
    splitAll c (before ++ c :: after) = splitAll c before ++ splitAll c after := by
  induction before with
  | nil =>
      obtain ⟨part, parts, hafter⟩ := List.exists_cons_of_ne_nil (splitAll_ne_nil c after)
      rw [List.nil_append, splitAll_cons hafter, if_pos rfl, hafter]
      rfl
  | cons d before ih =>
      obtain ⟨part, parts, hbefore⟩ := List.exists_cons_of_ne_nil (splitAll_ne_nil c before)
      rw [hbefore, List.cons_append] at ih
      rw [List.cons_append, splitAll_cons ih, splitAll_cons hbefore]
      split_ifs <;> rfl

namespace Path

variable {base : String} {path : Path}

theorem toList_under (hrelative : path.isAbsolute = false) :
    (path.under (base ++ "/")).written.toList = base.toList ++ '/' :: path.written.toList := by
  unfold under
  rw [hrelative]
  simp

theorem steps_under (hrelative : path.isAbsolute = false) :
    (path.under (base ++ "/")).steps = steps ⟨base⟩ ++ path.steps := by
  unfold steps
  rw [toList_under hrelative, splitAll_append]

theorem isAbsolute_under (hrelative : path.isAbsolute = false) :
    (path.under (base ++ "/")).isAbsolute = isAbsolute ⟨base ++ "/"⟩ := by
  have hhead : (path.under (base ++ "/")).written.toList.head? =
      (base ++ "/").toList.head? := by
    rw [toList_under hrelative, String.toList_append]
    cases base.toList <;> rfl
  unfold isAbsolute
  rw [hhead]

/-- What a path behind another one is, by the parts of both. -/
theorem components_under_eq (hrelative : path.isAbsolute = false) :
    (path.under (base ++ "/")).components =
      (if (steps ⟨base⟩).head? = some PathPart.here then PathPart.here :: leading ⟨base⟩
        else if isAbsolute ⟨base ++ "/"⟩ then [] :: leading ⟨base⟩ else leading ⟨base⟩) ++
        path.leading := by
  have hsteps := @steps_under base path hrelative
  have hhead : (path.under (base ++ "/")).steps.head? = (steps ⟨base⟩).head? := by
    obtain ⟨part, parts, hbase⟩ := List.exists_cons_of_ne_nil (splitAll_ne_nil '/' base.toList)
    rw [hsteps, show steps ⟨base⟩ = part :: parts from hbase]
    rfl
  have hleading : (path.under (base ++ "/")).leading = leading ⟨base⟩ ++ path.leading := by
    unfold leading
    rw [hsteps, List.filter_append]
  unfold components parts
  rw [hhead, hleading, isAbsolute_under hrelative]
  split_ifs <;> rfl

/-- **Behind the path of a directory** only what leads on counts. -/
theorem components_under (hrelative : path.isAbsolute = false) :
    (path.under (base ++ "/")).components = components ⟨base ++ "/"⟩ ++ path.leading := by
  -- The path of the directory is the one that the empty path has behind it.
  have hempty : (Path.mk "").under (base ++ "/") = ⟨base ++ "/"⟩ := by simp [under, isAbsolute]
  have hhome := @components_under_eq base ⟨""⟩ rfl
  rw [hempty] at hhome
  rw [components_under_eq hrelative, hhome, List.append_assoc]
  rfl

end Path

/-- **Two ways to write a path** in a directory are the same path exactly if they lead through the
same parts. -/
theorem Directory.samePath_iff {directory : Directory} {base : String}
    (hhome : directory.home = base ++ "/") {left right : Path} (hleft : left.isAbsolute = false)
    (hright : right.isAbsolute = false) :
    directory.SamePath left right ↔ left.leading = right.leading := by
  unfold SamePath full
  rw [hhome, Path.components_under hleft, Path.components_under hright]
  exact ⟨List.append_cancel_left, congrArg _⟩

/-- The current directory has no path of its own, and a point in front of a name makes a
difference. -/
example : ¬Directory.SamePath { Directory.empty with home := "" } ⟨"a"⟩ ⟨"./a"⟩ := by decide

example : Directory.empty.SamePath ⟨"a"⟩ ⟨".//a/."⟩ := by decide

end Snapshot
