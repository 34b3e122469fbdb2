import Mathlib.Data.List.Forall2
import Mathlib.Logic.Basic
import Mathlib.Tactic.SplitIfs
import Snapshot.Proofs.Expression.Parse
import Snapshot.Proofs.Header.Regular
import Snapshot.Read.Variable

/-!
# What is planned

A read is planned exactly where its text is an expression, every part of it can
be read, and the buffer has the shape and the length (`planRead_eq_ok_iff`).  A
single selection is one access, which takes triples if all components of a
vector column are wanted (`planRead_one_eq_ok_iff`).
-/

namespace Snapshot

/-! ## Values that may be errors -/

theorem bind_eq_ok_iff {ε α β : Type} {value : Except ε α} {next : α → Except ε β} {b : β} :
    (value >>= next) = .ok b ↔ ∃ a, value = .ok a ∧ next a = .ok b := by
  cases value with
  | error error => simp [bind, Except.bind]
  | ok a => simp [bind, Except.bind]

theorem mapError_eq_ok_iff {ε δ α : Type} {value : Except ε α} {f : ε → δ} {a : α} :
    value.mapError f = .ok a ↔ value = .ok a := by
  cases value with
  | error error => simp [Except.mapError]
  | ok b => simp [Except.mapError]

theorem forM_eq_ok_iff {ε α : Type} {check : α → Except ε Unit} {members : List α} {u : Unit} :
    members.forM check = .ok u ↔ ∀ a ∈ members, check a = .ok () := by
  induction members with
  | nil => exact iff_of_true rfl fun _ h => absurd h List.not_mem_nil
  | cons a rest ih =>
      have hstep : (a :: rest).forM check = check a >>= fun _ => rest.forM check := rfl
      rw [hstep, bind_eq_ok_iff, List.forall_mem_cons, ← ih]
      constructor
      · intro h
        rcases h with ⟨⟨⟩, ha, hrest⟩
        exact ⟨ha, hrest⟩
      · intro h
        rcases h with ⟨ha, hrest⟩
        exact ⟨(), ha, hrest⟩

/-- A sequence fails with the first error in it. -/
theorem bind_eq_error_iff {ε α β : Type} {value : Except ε α} {next : α → Except ε β} {error : ε} :
    (value >>= next) = .error error ↔
      value = .error error ∨ ∃ a, value = .ok a ∧ next a = .error error := by
  cases value with
  | error found => simp [bind, Except.bind]
  | ok a => simp [bind, Except.bind]

theorem mapError_eq_error_iff {ε δ α : Type} {value : Except ε α} {f : ε → δ} {error : δ} :
    value.mapError f = .error error ↔ ∃ found, value = .error found ∧ f found = error := by
  cases value with
  | error found => simp [Except.mapError]
  | ok a => simp [Except.mapError]

theorem exists_of_forM_eq_error {ε α : Type} {check : α → Except ε Unit} {members : List α}
    {error : ε} (h : members.forM check = .error error) :
    ∃ a ∈ members, check a = .error error := by
  induction members with
  | nil => cases h
  | cons a rest ih =>
      change (check a >>= fun _ => rest.forM check) = _ at h
      obtain hfirst | ⟨-, -, hrest⟩ := bind_eq_error_iff.mp h
      · exact ⟨a, List.mem_cons_self, hfirst⟩
      · obtain ⟨b, hb, hfails⟩ := ih hrest
        exact ⟨b, List.mem_cons_of_mem a hb, hfails⟩

/-- Values that are made one after the other are all there, or none is. -/
theorem mapM_eq_ok_iff {ε α β : Type} {f : α → Except ε β} {members : List α} {values : List β} :
    members.mapM f = .ok values ↔ List.Forall₂ (fun a b => f a = .ok b) members values := by
  induction members generalizing values with
  | nil =>
      rw [List.forall₂_nil_left_iff, List.mapM_nil]
      exact ⟨fun h => (Except.ok.inj h).symm, fun h => h ▸ rfl⟩
  | cons a rest ih =>
      rw [List.mapM_cons, bind_eq_ok_iff, List.forall₂_cons_left_iff]
      constructor
      · intro h
        obtain ⟨first, hfirst, hrest⟩ := h
        obtain ⟨others, hothers, ⟨⟩⟩ := bind_eq_ok_iff.mp hrest
        exact ⟨first, others, hfirst, ih.mp hothers, rfl⟩
      · intro h
        obtain ⟨first, others, hfirst, hothers, rfl⟩ := h
        exact ⟨first, hfirst, bind_eq_ok_iff.mpr ⟨others, ih.mpr hothers, rfl⟩⟩

/-- Where some value cannot be made, the error is that of the first. -/
theorem exists_first_of_mapM_eq_error {ε α β : Type} {f : α → Except ε β} {members : List α}
    {error : ε} (h : members.mapM f = .error error) :
    ∃ before a rest, members = before ++ a :: rest ∧
      (∀ earlier ∈ before, ∃ b, f earlier = .ok b) ∧ f a = .error error := by
  induction members with
  | nil => cases h
  | cons a rest ih =>
      rw [List.mapM_cons] at h
      cases hfirst : f a with
      | error found =>
          rw [hfirst] at h
          cases h
          exact ⟨[], a, rest, rfl, fun _ hnone => absurd hnone List.not_mem_nil, hfirst⟩
      | ok value =>
          rw [hfirst] at h
          have hrest : rest.mapM f = .error error := by
            cases hvalues : rest.mapM f with
            | error found =>
                rw [hvalues] at h
                cases h
                rfl
            | ok values =>
                rw [hvalues] at h
                cases h
          obtain ⟨before, b, others, rfl, hbefore, hfails⟩ := ih hrest
          exact ⟨a :: before, b, others, rfl,
            List.forall_mem_cons.mpr ⟨⟨value, hfirst⟩, hbefore⟩, hfails⟩

/-! ## Plans -/

theorem Buffer.check_eq_ok_iff {buffer : Buffer} {text : String} {expected : Shape}
    {particles : Nat} {u : Unit} :
    buffer.check text expected particles = .ok u ↔
      buffer.shape = expected ∧ buffer.length = particles := by
  unfold Buffer.check
  split_ifs with hshape hlength
  · simp [hshape]
  · simp [hlength]
  · rw [not_not] at hshape hlength
    exact iff_of_true rfl ⟨hshape, hlength⟩

theorem planRead_eq_ok_iff {layout : Layout} {text : String} {buffer : Buffer}
    {accesses : List Access} :
    planRead layout text buffer = .ok accesses ↔
      ∃ expression, Expression.parse text = .ok expression ∧
        (∀ selection ∈ expression.parts, selection.check layout = .ok ()) ∧
        accesses = expression.parts.map (Selection.access layout) ∧
        buffer.shape = shapeFor expression accesses ∧ buffer.length = layout.count := by
  unfold planRead Expression.plan Expression.check
  simp only [bind_eq_ok_iff, mapError_eq_ok_iff, forM_eq_ok_iff, Buffer.check_eq_ok_iff]
  constructor
  · intro h
    rcases h with ⟨expression, hparse, planned, ⟨-, hcheck, ⟨⟩⟩, -, hbuffer, ⟨⟩⟩
    exact ⟨expression, hparse, hcheck, rfl, hbuffer⟩
  · intro h
    rcases h with ⟨expression, hparse, hcheck, rfl, hbuffer⟩
    exact ⟨expression, hparse, _, ⟨(), hcheck, rfl⟩, (), hbuffer, rfl⟩

/-! ## Single selections -/

theorem Selection.check_eq_ok_iff {layout : Layout} {selection : Selection} {u : Unit} :
    selection.check layout = .ok u ↔
      (selection.name ∈ layout.names ∨ selection.name = identifierColumn) ∧
        ∀ index, selection.component = some index →
          index ≤ greatestComponent ∧ (layout.find? selection.name).any layout.isTriple := by
  have hnone : (layout.find? selection.name).isNone ↔ selection.name ∉ layout.names := by
    rw [Option.isNone_iff_eq_none, Layout.find?_eq_none_iff]
  unfold Selection.check
  dsimp only
  by_cases hknown : selection.name ∈ layout.names ∨ selection.name = identifierColumn
  · rw [if_neg fun h => hknown.elim (hnone.mp h.1) h.2]
    cases selection.component with
    | none => simp [hknown]
    | some index =>
        dsimp only
        split_ifs with hindex
        · rw [Bool.and_eq_true, decide_eq_true_eq] at hindex
          refine iff_of_true rfl ⟨hknown, ?_⟩
          intro other h
          cases h
          exact hindex
        · rw [Bool.and_eq_true, decide_eq_true_eq] at hindex
          exact iff_of_false nofun fun h => hindex (h.2 index rfl)
  · obtain ⟨hname, hid⟩ := not_or.mp hknown
    rw [if_pos ⟨hnone.mpr hname, hid⟩]
    exact iff_of_false nofun fun h => hknown h.1

/-- Some column with the name has three components per particle. -/
def Layout.StoresTriples (layout : Layout) (name : String) : Prop :=
  ∃ column : Nat, layout.names[column]? = some name ∧ layout.widths[column]? = some 3

/-- The selection can be read into the buffer: the name is known, only a vector column has
components, and the buffer takes triples for all of a vector column and single values for
anything else. -/
structure Layout.Admits (layout : Layout) (selection : Selection) (buffer : Buffer) : Prop where
  name_known : selection.name ∈ layout.names ∨ selection.name = identifierColumn
  component_of_triple : selection.component ≠ none → layout.StoresTriples selection.name
  shape_triples : selection.component = none → layout.StoresTriples selection.name →
    buffer.shape = .triples
  shape_flat : selection.component ≠ none ∨ ¬layout.StoresTriples selection.name →
    buffer.shape = .flat
  length_eq : buffer.length = layout.count

section

variable {layout : Layout} (htabled : layout.Tabled)

include htabled

theorem any_isTriple_iff {name : String} :
    (layout.find? name).any layout.isTriple ↔ layout.StoresTriples name := by
  rw [Option.any_eq_true]
  constructor
  · intro h
    rcases h with ⟨column, hfind, htriple⟩
    exact ⟨column, Layout.find?_eq_some hfind, of_decide_eq_true htriple⟩
  · intro h
    rcases h with ⟨column, hname, hwidth⟩
    exact ⟨column, htabled.find?_eq_some_iff.mpr hname, decide_eq_true hwidth⟩

/-- Triples are read from whole vector columns. -/
theorem readsTriples_iff (selection : Selection) :
    (selection.access layout).readsTriples ↔
      selection.component = none ∧ layout.StoresTriples selection.name := by
  unfold Access.readsTriples Selection.access
  rw [← any_isTriple_iff htabled]
  cases hfind : layout.find? selection.name with
  | none => simp
  | some column =>
      obtain ⟨type, width, -, hwidth, hknown⟩ :=
        htabled.exists_type_width (Layout.lt_columns_of_find? hfind)
      dsimp only
      rw [Bool.and_eq_true, decide_eq_true_eq, Option.isNone_iff_eq_none, and_comm, Option.any_some,
        Layout.isTriple, decide_eq_true_eq, List.getD_eq_getElem?_getD, hwidth, Option.getD_some]
      apply and_congr_right
      intro
      rcases hknown with rfl | rfl
      · exact iff_of_false (by decide) (by decide)
      · exact iff_of_true (by decide) rfl

/-- A checked selection is admitted with a buffer of the shape that its access asks for. -/
theorem admits_of_check {selection : Selection} {buffer : Buffer}
    (hcheck : selection.check layout = .ok ())
    (hshape : buffer.shape = shapeFor (.one selection) [selection.access layout])
    (hlength : buffer.length = layout.count) : layout.Admits selection buffer := by
  have htriples := readsTriples_iff htabled selection
  change buffer.shape = if (selection.access layout).readsTriples then .triples else .flat at hshape
  obtain ⟨hknown, hcomponent⟩ := Selection.check_eq_ok_iff.mp hcheck
  refine ⟨hknown, fun hsome => ?_, fun hwhole htriple => ?_, fun hflat => ?_, hlength⟩
  · obtain ⟨index, hindex⟩ := Option.ne_none_iff_exists'.mp hsome
    exact (any_isTriple_iff htabled).mp (hcomponent index hindex).2
  · exact hshape.trans (if_pos (htriples.mpr ⟨hwhole, htriple⟩))
  · refine hshape.trans (if_neg fun hreads => ?_)
    obtain ⟨hwhole, htriple⟩ := htriples.mp hreads
    exact hflat.elim (fun hindexed => hindexed hwhole) fun hsingle => hsingle htriple

/-- **The plan of a single selection** is its one access, and there is one exactly where the layout
admits the selection and the buffer. -/
theorem planRead_one_eq_ok_iff {text : String} {selection : Selection} {buffer : Buffer}
    {accesses : List Access} (hparse : Expression.parse text = .ok (.one selection)) :
    planRead layout text buffer = .ok accesses ↔
      layout.Admits selection buffer ∧ accesses = [selection.access layout] := by
  have hshape : shapeFor (.one selection) [selection.access layout] =
      if (selection.access layout).readsTriples then .triples else .flat := rfl
  have htriples := readsTriples_iff htabled selection
  rw [planRead_eq_ok_iff]
  constructor
  · intro h
    rcases h with ⟨expression, hfound, hcheck, rfl, hbuffer, hlength⟩
    obtain rfl : expression = .one selection := Except.ok.inj (hfound.symm.trans hparse)
    exact ⟨admits_of_check htabled (hcheck selection List.mem_cons_self) hbuffer hlength, rfl⟩
  · intro h
    rcases h with ⟨hadmits, rfl⟩
    refine ⟨.one selection, hparse, ?_, rfl, ?_, hadmits.length_eq⟩
    · intro other hother
      obtain rfl := List.mem_singleton.mp hother
      refine Selection.check_eq_ok_iff.mpr ⟨hadmits.name_known, fun index hindex => ⟨?_, ?_⟩⟩
      · exact Expression.component_le_of_parse hparse hindex
      · exact (any_isTriple_iff htabled).mpr
          (hadmits.component_of_triple (hindex ▸ Option.some_ne_none index))
    · rw [hshape]
      split_ifs with hreads
      · obtain ⟨hwhole, htriple⟩ := htriples.mp hreads
        exact hadmits.shape_triples hwhole htriple
      · apply hadmits.shape_flat
        rw [← not_and_or, ← htriples]
        exact hreads

end

/-! ## Plans lie where the layout says -/

/-- A stored access takes the bytes of its column. -/
def Access.Lies (layout : Layout) (access : Access) : Prop :=
  ∀ column start length, access.source = .stored column start length →
    start = layout.columnStart column ∧ length = layout.columnLength column

theorem Selection.access_lies (layout : Layout) (selection : Selection) :
    (selection.access layout).Lies layout := by
  unfold Selection.access
  cases layout.find? selection.name with
  | none =>
      intro column start length h
      cases h
  | some found =>
      intro column start length h
      cases h
      exact ⟨rfl, rfl⟩

theorem planRead_lies {layout : Layout} {text : String} {buffer : Buffer} {accesses : List Access}
    (hplan : planRead layout text buffer = .ok accesses) :
    ∀ access ∈ accesses, access.Lies layout := by
  obtain ⟨expression, -, -, rfl, -⟩ := planRead_eq_ok_iff.mp hplan
  rw [List.forall_mem_map]
  exact fun selection _ => selection.access_lies layout

end Snapshot
