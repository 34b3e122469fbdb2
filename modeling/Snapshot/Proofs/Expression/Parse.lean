import Snapshot.Proofs.Expression.Grammar

/-!
# Texts that name a column

A text is read as the whole of a column if and only if, without the blanks around
it, it is the name of the column and free of brackets
(`Expression.parse_eq_column_iff`).  A name is therefore read as itself exactly if
it is `Expression.Nameable`: no bracket is in it, and it neither begins nor ends
with a blank.
-/

namespace Snapshot.Expression

/-! ## What was parsed -/

/-- No index that was parsed is too great. -/
theorem component_le_of_parse {text : String} {selection : Selection} {index : Nat}
    (hparse : parse text = .ok (.one selection)) (hcomponent : selection.component = some index) :
    index ≤ greatestComponent := by
  obtain ⟨name, component⟩ := selection
  cases hcomponent
  obtain ⟨digits, -, -, hle⟩ := parse_eq_component_iff.mp hparse
  exact hle

/-- A text is refused for its form or for its index, and no file is looked at. -/
theorem eq_of_parse_eq_error {text : String} {fault : Fault} (hparse : parse text = .error fault) :
    (∃ name index, fault = .noSuchComponent name index) ∨ ∃ shown, fault = .badExpression shown := by
  rcases parse_eq_iff.mp hparse with hspells | ⟨-, hbad⟩
  · cases hspells with
    | outOfRange => exact .inl ⟨_, _, rfl⟩
  · cases hbad
    exact .inr ⟨_, rfl⟩

/-! ## Names -/

/-- The name, written as an expression, stands for itself: no bracket is in it, and it neither
begins nor ends with a blank. -/
structure Nameable (name : String) : Prop where
  bare : ∀ c ∈ name.toList, isBracket c = false
  first_not_blank : ∀ c ∈ name.toList.head?, isBlank c = false
  last_not_blank : ∀ c ∈ name.toList.getLast?, isBlank c = false

theorem parse_self_iff {name : String} (hne : name ≠ "") :
    parse name = .ok (.one ⟨name, none⟩) ↔ Nameable name := by
  rw [parse_eq_column_iff]
  constructor
  · rintro ⟨hself, hcolumn⟩
    obtain ⟨hfirst, hlast⟩ := trimmed_eq_self_iff.mp hself.symm
    rw [← hself] at hcolumn
    exact ⟨hcolumn.bare, hfirst, hlast⟩
  · intro h
    have hself := trimmed_eq_self_iff.mpr ⟨h.first_not_blank, h.last_not_blank⟩
    rw [hself]
    exact ⟨rfl, hne, h.bare⟩

end Snapshot.Expression
