import Snapshot.Proofs.Expression.Grammar

/-!
# Canonical texts

An expression can be spelled in many ways: with either kind of brackets, with zeros ahead of an
index, with blanks around it.  `Expression.render` picks one of them, and parsing it gives the
expression back (`Expression.parse_render`).  So of all texts that spell an expression one is
canonical, and texts have the same canonical text only if they spell the same
(`Expression.render_canonical`).

A name may hold any characters but brackets, blanks at its end included.  Since the name came from a
text whose blanks had been taken off, it does not begin with one, and the bracket behind the index
keeps the blanks at its end inside the text.
-/

namespace Snapshot.Expression

variable {text name digits : String}

/-! ## Written indices -/

theorem toList_toString (index : Nat) : (toString index).toList = Nat.toDigits 10 index := by
  rw [Nat.toString_eq_ofList_toDigits, String.toList_ofList]

/-- An index that was written down is read back. -/
theorem number_toString (index : Nat) : number (toString index) = index := by
  rw [number, toList_toString, Nat.ofDigitChars_ten_toDigits]

theorem spellsComponent_render (hne : name ≠ "") (hbare : Bare name) (index : Nat) :
    SpellsComponent (Selection.render ⟨name, some index⟩) name (toString index) where
  encloses := .inl rfl
  name_ne_empty := hne
  name_bare := hbare
  digits_ne_empty := by
    rw [Ne, ← String.toList_eq_nil_iff, toList_toString]
    exact Nat.toDigits_ne_nil
  decimal := by
    rw [toList_toString]
    intro c hc
    exact Nat.isDigit_of_mem_toDigits (by decide) (by decide) hc

/-! ## Nothing to trim -/

theorem trimmed_trimmed (text : String) : trimmed (trimmed text) = trimmed text := by
  unfold trimmed
  rw [String.toList_ofList, trim_trim]

/-- A bracketed text begins like the name in it. -/
theorem Encloses.exists_toList_eq {inner : String} (h : Encloses text name inner) :
    ∃ rest, text.toList = name.toList ++ rest := by
  obtain ⟨opening, closing, -, htext⟩ := encloses_iff.mp h
  exact ⟨_, htext⟩

/-- The name in a trimmed text does not begin with a blank. -/
theorem first_not_blank_of_spells (h : SpellsComponent (trimmed text) name digits) :
    ∀ c ∈ name.toList.head?, isBlank c = false := by
  intro c hc
  obtain ⟨rest, htext⟩ := h.encloses.exists_toList_eq
  apply (trims_trimmed text).first_not_blank
  rw [htext]
  exact List.mem_head?_append_of_mem_head? hc

theorem trimmed_render (hne : name ≠ "") (hfirst : ∀ c ∈ name.toList.head?, isBlank c = false)
    (index : Nat) :
    trimmed (Selection.render ⟨name, some index⟩) = Selection.render ⟨name, some index⟩ := by
  have hrender : (Selection.render ⟨name, some index⟩).toList =
      name.toList ++ ('[' :: (toString index).toList ++ [']']) := by
    simp [Selection.render]
  rw [trimmed_eq_self_iff, hrender]
  constructor
  · intro c hc
    cases hname : name.toList with
    | nil => exact absurd (String.toList_eq_nil_iff.mp hname) hne
    | cons first rest =>
        rw [hname] at hc hfirst
        exact hfirst c hc
  · intro c hc
    rw [← List.append_assoc, List.getLast?_concat] at hc
    cases hc
    decide

/-! ## Back again -/

/-- **The canonical text** of an expression that was parsed spells this expression. -/
theorem parse_render {e : Expression} (hparse : parse text = .ok e) : parse e.render = .ok e := by
  cases e with
  | records => exact parse_eq_records_iff.mpr (.inl rfl)
  | one selection =>
      obtain ⟨name, component⟩ := selection
      cases component with
      | none =>
          obtain ⟨rfl, hcolumn⟩ := parse_eq_column_iff.mp hparse
          refine parse_eq_column_iff.mpr ⟨(trimmed_trimmed text).symm, ?_⟩
          exact (trimmed_trimmed text).symm ▸ hcolumn
      | some index =>
          obtain ⟨digits, hspells, -, hle⟩ := parse_eq_component_iff.mp hparse
          have hfirst := first_not_blank_of_spells hspells
          have htrimmed := trimmed_render hspells.name_ne_empty hfirst index
          have hrender := spellsComponent_render hspells.name_ne_empty hspells.name_bare index
          refine parse_eq_component_iff.mpr ⟨toString index, ?_, number_toString index, hle⟩
          exact htrimmed.symm ▸ hrender

/-- **One canonical text.**  Parsing the canonical text of an expression that was parsed gives this
expression, and other texts have the same canonical text exactly if they spell it too. -/
theorem render_canonical {e : Expression} (hparse : parse text = .ok e) :
    parse e.render = .ok e ∧
      ∀ other f, parse other = .ok f → (f.render = e.render ↔ f = e) := by
  refine ⟨parse_render hparse, fun other f hother => ⟨fun hsame => ?_, congrArg render⟩⟩
  have hback : parse e.render = .ok f := hsame ▸ parse_render hother
  exact Except.ok.inj (hback.symm.trans (parse_render hparse))

theorem render_canonical_spacedName :
    parse "\u2003a é \x7b002\x7d\n" = .ok (.one ⟨"a é ", some 2⟩) ∧
      parse "a é [2]" = .ok (.one ⟨"a é ", some 2⟩) ∧
      parse "a é[2]" = .ok (.one ⟨"a é", some 2⟩) ∧ "a é[2]" ≠ "a é [2]" := by
  have hparse : parse "\u2003a é \x7b002\x7d\n" = .ok (.one ⟨"a é ", some 2⟩) := by decide +kernel
  have hother : parse "a é[2]" = .ok (.one ⟨"a é", some 2⟩) := by decide +kernel
  obtain ⟨hback, honly⟩ := render_canonical hparse
  have hname : (⟨"a é", some 2⟩ : Selection) ≠ ⟨"a é ", some 2⟩ := by decide
  exact ⟨hparse, hback, hother, fun hsame => hname (one.inj ((honly _ _ hother).mp hsame))⟩

end Snapshot.Expression
