import Snapshot.Proofs.Read.Simple

/-!
# Columns and their own names

A header may store a column under any name that is not empty and not taken.  An
expression cannot be any text: blanks around it do not count, and brackets have a
meaning.  A column is found by its own name exactly where that name is
`Expression.Nameable`, and then it is this column, all of it, that is read
(`Expression.lookUp_own_name`).  A name with brackets may well be an expression,
but one for something else (`Expression.not_all_lookUp_own_name`).
-/

namespace Snapshot.Expression

theorem check_one_eq_ok_iff {layout : Layout} {selection : Selection} {u : Unit} :
    (one selection).check layout = .ok u ↔ selection.check layout = .ok () := by
  unfold Expression.check
  rw [forM_eq_ok_iff]
  exact List.forall_mem_singleton

theorem lookUp_eq_ok_iff {layout : Layout} {text : String} {expression : Expression} :
    lookUp layout text = .ok expression ↔
      parse text = .ok expression ∧ expression.check layout = .ok () := by
  unfold lookUp
  simp only [bind_eq_ok_iff]
  constructor
  · intro h
    rcases h with ⟨parsed, hparse, ⟨⟩, hcheck, ⟨⟩⟩
    exact ⟨hparse, hcheck⟩
  · intro h
    rcases h with ⟨hparse, hcheck⟩
    exact ⟨expression, hparse, (), hcheck, rfl⟩

/-- All of a column that has a name can be read. -/
theorem check_whole {layout : Layout} {name : String} (hname : name ∈ layout.names) :
    (one ⟨name, none⟩).check layout = .ok () :=
  check_one_eq_ok_iff.mpr (Selection.check_eq_ok_iff.mpr ⟨.inl hname, nofun⟩)

/-- **A column is found by its own name** exactly if the name stands for itself among expressions,
and all that is read of the file is then this column as it is stored. -/
theorem lookUp_own_name {bytes : Bytes} {h : Header} (hdecode : Header.ofBytes bytes = .ok h)
    {column : Nat} {name : String} (hname : h.layout.names[column]? = some name) :
    (lookUp h.layout name = .ok (.one ⟨name, none⟩) ↔ Nameable name) ∧
      ∃ type width, h.layout.types[column]? = some type ∧ h.layout.widths[column]? = some width ∧
        (one ⟨name, none⟩).plan h.layout =
          .ok [⟨.stored column (h.layout.columnStart column) (h.layout.columnLength column), type,
            width.toNat, none⟩] := by
  have htabled := Header.tabled_of_ofBytes hdecode
  have hmem := List.mem_of_getElem? hname
  have hcheck := check_whole hmem
  have hfind := htabled.find?_eq_some_iff.mpr hname
  refine ⟨?_, ?_⟩
  · rw [lookUp_eq_ok_iff, parse_self_iff (htabled.names_ne_empty name hmem)]
    exact and_iff_left hcheck
  · obtain ⟨type, width, htype, hwidth, -⟩ :=
      htabled.exists_type_width (Layout.lt_columns_of_find? hfind)
    have haccess : Selection.access h.layout ⟨name, none⟩ = _ :=
      access_eq_of_find? hfind htype hwidth
    refine ⟨type, width, htype, hwidth, ?_⟩
    unfold Expression.plan
    rw [hcheck, ← haccess]
    rfl

/-- A table with a vector column, and others whose names have brackets, a blank inside and a blank
in front. -/
def oddNamesSection : Section where
  version := 2
  order := .little
  preamble := .ofWords 2 [0, 1, 1, 1, 1, 1, 0, 0, 0, 1, 1, 1, 7, 0, 0, 0, 0, 0, 0]
  native := []
  names := ["x", "x[0]", "a b", " a"]
  types := [.f32, .f32, .u32, .u32]
  widths := [3, 1, 1, 1]

/-- A file with this table and the values of one particle. -/
def oddNamesFile : Bytes := oddNamesSection.encode ++ List.replicate 24 0x40

theorem lookUp_own_name_oddNamesFile :
    Header.ofBytes oddNamesFile = .ok (oddNamesSection.toHeader 210) ∧
      (oddNamesSection.toHeader 210).layout.names[2]? = some "a b" ∧ Nameable "a b" ∧
      lookUp (oddNamesSection.toHeader 210).layout "a b" = .ok (.one ⟨"a b", none⟩) := by
  have hdecode : Header.ofBytes oddNamesFile = .ok (oddNamesSection.toHeader 210) := by
    decide +kernel
  have hname : (oddNamesSection.toHeader 210).layout.names[2]? = some "a b" := by decide +kernel
  have htext : "a b".toList = ['a', ' ', 'b'] := by decide +kernel
  have hnameable : Nameable "a b" := by
    refine ⟨?_, ?_, ?_⟩
    · rw [htext]
      simp [isBracket]
    · rw [htext]
      intro c hc
      cases hc
      rfl
    · rw [htext]
      intro c hc
      cases hc
      rfl
  exact ⟨hdecode, hname, hnameable, (lookUp_own_name hdecode hname).1.mpr hnameable⟩

/-- A column that has the name of a component of another one is not found by its name. -/
theorem not_all_lookUp_own_name :
    ¬∀ (bytes : Bytes) (h : Header), Header.ofBytes bytes = .ok h →
      ∀ (column : Nat) (name : String), h.layout.names[column]? = some name →
        lookUp h.layout name = .ok (.one ⟨name, none⟩) ∧
          ∃ type width, (one ⟨name, none⟩).plan h.layout =
            .ok [⟨.stored column (h.layout.columnStart column) (h.layout.columnLength column), type,
              width, none⟩] := by
  intro hclaim
  have hown := (hclaim oddNamesFile (oddNamesSection.toHeader 210) (by decide +kernel) 1 "x[0]"
    (by decide +kernel)).1
  have hother : lookUp (oddNamesSection.toHeader 210).layout "x[0]" = .ok (.one ⟨"x", some 0⟩) := by
    decide +kernel
  rw [hother] at hown
  exact absurd hown (by decide)

end Snapshot.Expression
