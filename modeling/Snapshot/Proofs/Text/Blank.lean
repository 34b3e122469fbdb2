import Mathlib.Data.List.Basic
import Mathlib.Data.List.TakeWhile
import Snapshot.Text.Blank

/-!
# What trimming leaves

Taking the blanks off both ends of a text leaves its core: the text is the core with blanks ahead of
it and behind it, and the core neither begins nor ends with a blank.  There is only one such core
(`trim_eq_iff`), so trimming a second time changes nothing.
-/

namespace Snapshot

variable {text core : List Char}

/-- The core of a text: what is left without the blanks at its two ends. -/
structure Trims (text core : List Char) : Prop where
  exists_blanks : ∃ front back, text = front ++ core ++ back ∧
    (∀ c ∈ front, isBlank c) ∧ ∀ c ∈ back, isBlank c
  first_not_blank : ∀ c ∈ core.head?, isBlank c = false
  last_not_blank : ∀ c ∈ core.getLast?, isBlank c = false

theorem head?_dropWhile_not_blank : ∀ c ∈ (text.dropWhile isBlank).head?, isBlank c = false := by
  intro c hc
  have hfirst := List.head?_dropWhile_not isBlank text
  rwa [Option.mem_def.mp hc] at hfirst

theorem getLast?_trimEnd_not_blank : ∀ c ∈ (trimEnd text).getLast?, isBlank c = false := by
  unfold trimEnd
  rw [List.getLast?_reverse]
  exact head?_dropWhile_not_blank

/-- Only blanks are taken off the end. -/
theorem exists_trimEnd_append (text : List Char) :
    ∃ back, text = trimEnd text ++ back ∧ ∀ c ∈ back, isBlank c := by
  refine ⟨(text.reverse.takeWhile isBlank).reverse, ?_, fun c hc => ?_⟩
  · rw [trimEnd, ← List.reverse_append, List.takeWhile_append_dropWhile, List.reverse_reverse]
  · exact List.mem_takeWhile_imp (List.mem_reverse.mp hc)

theorem trims_trim (text : List Char) : Trims text (trim text) := by
  obtain ⟨back, hback, hblank⟩ := exists_trimEnd_append (text.dropWhile isBlank)
  refine ⟨⟨text.takeWhile isBlank, back, ?_, fun c => List.mem_takeWhile_imp, hblank⟩, ?_,
    getLast?_trimEnd_not_blank⟩
  · calc text
        = text.takeWhile isBlank ++ text.dropWhile isBlank :=
          List.takeWhile_append_dropWhile.symm
      _ = text.takeWhile isBlank ++ (trim text ++ back) := congrArg _ hback
      _ = text.takeWhile isBlank ++ trim text ++ back := (List.append_assoc _ _ _).symm
  · -- What is left begins like the text without the blanks ahead of it.
    have hfirst := @head?_dropWhile_not_blank text
    rw [hback] at hfirst
    intro c hc
    exact hfirst c (List.mem_head?_append_of_mem_head? hc)

theorem trimEnd_append (hlast : ∀ c ∈ core.getLast?, isBlank c = false) {back : List Char}
    (hback : ∀ c ∈ back, isBlank c) : trimEnd (core ++ back) = core := by
  have hblank : ∀ c ∈ back.reverse, isBlank c := fun c hc => hback c (List.mem_reverse.mp hc)
  unfold trimEnd
  rw [List.reverse_append, List.dropWhile_append_of_pos hblank, List.reverse_eq_iff]
  rw [← List.head?_reverse] at hlast
  cases hcore : core.reverse with
  | nil => rfl
  | cons c rest =>
      have hc := hlast c (by rw [hcore]; rfl)
      simp [hc]

/-- **The core of a text** is what trimming leaves. -/
theorem trim_eq_iff : trim text = core ↔ Trims text core := by
  constructor
  · rintro rfl
    exact trims_trim text
  · rintro ⟨⟨front, back, rfl, hfront, hback⟩, hfirst, hlast⟩
    unfold trim
    rw [List.append_assoc, List.dropWhile_append_of_pos hfront]
    cases core with
    | nil =>
        have hnone : back.dropWhile isBlank = [] := List.dropWhile_eq_nil_iff.mpr hback
        rw [List.nil_append, hnone]
        rfl
    | cons c rest =>
        have hc : ¬isBlank c := Bool.eq_false_iff.mp (hfirst c rfl)
        rw [List.cons_append, List.dropWhile_cons_of_neg hc, ← List.cons_append,
          trimEnd_append hlast hback]

/-- A text is unchanged by trimming if there is nothing to trim at either end. -/
theorem trim_eq_self_iff :
    trim text = text ↔
      (∀ c ∈ text.head?, isBlank c = false) ∧ ∀ c ∈ text.getLast?, isBlank c = false := by
  rw [trim_eq_iff]
  constructor
  · intro h
    exact ⟨h.first_not_blank, h.last_not_blank⟩
  · rintro ⟨hfirst, hlast⟩
    exact ⟨⟨[], [], by simp, nofun, nofun⟩, hfirst, hlast⟩

theorem trim_trim (text : List Char) : trim (trim text) = trim text :=
  trim_eq_self_iff.mpr ⟨(trims_trim text).first_not_blank, (trims_trim text).last_not_blank⟩

end Snapshot
