import Snapshot.Proofs.Header.Tiling
import Snapshot.Proofs.Read.Records

/-!
# What a plan reads

A plan is made of accesses, and carrying them out asks nothing any more.  So all depends on the
checks that come first.  `Selection.ReadBy` says what an access may be: a column of the requested
name as it lies in the file, with no component that the column does not have, or the identifiers
that are counted up, where they were asked for as a whole and no column stores them.  An access
that was planned is of one of these two kinds (`Selection.readBy_access`).

The plan of an expression is the plans of its parts one after the other, and where one of them
fails, so does the whole (`Expression.plan_eq_parts`).  Nothing is assumed of the expression,
which need not come from a text.
-/

namespace Snapshot

/-! ## Single selections -/

namespace Selection

/-- The access reads what the selection asks for, in a file with the given layout. -/
inductive ReadBy (layout : Layout) (selection : Selection) : Access → Prop
  /-- The identifiers, where no column stores them. -/
  | implicitIds (hwhole : selection = ⟨identifierColumn, none⟩)
      (hnone : identifierColumn ∉ layout.names) :
      ReadBy layout selection ⟨.implicitIds layout.firstId, .u64, 1, none⟩
  /-- A column that has the name, or the one of its components that was asked for. -/
  | stored {column : Nat} {type : ElementType} {width : UInt8}
      (hname : layout.names[column]? = some selection.name)
      (htype : layout.types[column]? = some type) (hwidth : layout.widths[column]? = some width)
      (hstart : layout.dataStart ≤ layout.columnStart column)
      (hlength : layout.columnLength column = width.toNat * type.size * layout.count)
      (hend : layout.columnStart column + layout.columnLength column ≤ layout.columnsEnd)
      (hcomponent : ∀ index, selection.component = some index → index < width.toNat) :
      ReadBy layout selection
        ⟨.stored column (layout.columnStart column) (layout.columnLength column), type,
          width.toNat, selection.component⟩

/-- Identifiers are the only selection that passes its check without a column. -/
theorem eq_identifiers_of_check {layout : Layout} {selection : Selection}
    (hcheck : selection.check layout = .ok ()) (hfind : layout.find? selection.name = none) :
    selection = ⟨identifierColumn, none⟩ := by
  obtain ⟨hknown, hcomponent⟩ := check_eq_ok_iff.mp hcheck
  obtain ⟨name, component⟩ := selection
  obtain rfl : name = identifierColumn := hknown.resolve_left (Layout.find?_eq_none_iff.mp hfind)
  cases component with
  | none => rfl
  | some index =>
      obtain ⟨-, htriple⟩ := hcomponent index rfl
      rw [hfind] at htriple
      cases htriple

/-- **An access that was planned** reads what was asked for. -/
theorem readBy_access {h : Header} (htabled : h.layout.Tabled) {length : Nat}
    (htiles : h.layout.Tiles length) {selection : Selection}
    (hcheck : selection.check h.layout = .ok ()) :
    selection.ReadBy h.layout (selection.access h.layout) := by
  cases hfind : h.layout.find? selection.name with
  | none =>
      obtain rfl := eq_identifiers_of_check hcheck hfind
      have haccess : access h.layout ⟨identifierColumn, none⟩ =
          ⟨.implicitIds h.layout.firstId, .u64, 1, none⟩ := by
        unfold access
        rw [hfind]
      rw [haccess]
      exact .implicitIds rfl (Layout.find?_eq_none_iff.mp hfind)
  | some column =>
      have hcolumn := Layout.lt_columns_of_find? hfind
      obtain ⟨type, width, htype, hwidth, -⟩ := htabled.exists_type_width hcolumn
      obtain ⟨hstart, hend⟩ := htiles.column_within hcolumn
      have hcomponent := component_lt_width htabled hcheck hfind hwidth
      rw [access_eq_of_find? hfind htype hwidth]
      refine .stored (Layout.find?_eq_some hfind) htype hwidth hstart
        (htiles.columnLength_eq column type width htype hwidth) hend fun index hindex => ?_
      rwa [hindex, Option.getD_some] at hcomponent

end Selection

/-! ## Expressions -/

namespace Expression

variable {layout : Layout}

theorem plan_one (selection : Selection) :
    (one selection).plan layout =
      (selection.check layout).map fun _ => [selection.access layout] := by
  show (selection.check layout >>= fun _ => pure ()) >>= (fun _ => _) = _
  cases selection.check layout with
  | error fault => rfl
  | ok u => rfl

/-- Checking all selections and then planning them is planning one after the other. -/
theorem forM_check_bind_eq_mapM (selections : List Selection) :
    (selections.forM (Selection.check layout) >>= fun _ =>
        pure (selections.map (Selection.access layout))) =
      (selections.mapM fun part => (one part).plan layout).map List.flatten := by
  induction selections with
  | nil => rfl
  | cons selection rest ih =>
      have hstep : (selection :: rest).forM (Selection.check layout) =
          selection.check layout >>= fun _ => rest.forM (Selection.check layout) := rfl
      rw [hstep, List.mapM_cons, plan_one]
      generalize rest.forM (Selection.check layout) = checked at ih ⊢
      generalize (rest.mapM fun part => (one part).plan layout) = plans at ih ⊢
      cases selection.check layout with
      | error fault => rfl
      | ok u =>
          -- The rest fails on both sides, or on neither.
          cases checked with
          | error fault =>
              cases plans with
              | error other =>
                  cases ih
                  rfl
              | ok lists => cases ih
          | ok u =>
              cases plans with
              | error other => cases ih
              | ok lists =>
                  have hrest : rest.map (Selection.access layout) = lists.flatten :=
                    Except.ok.inj ih
                  show Except.ok _ = Except.ok (_ :: lists.flatten)
                  rw [List.map_cons, hrest]

/-- **The plan of an expression** is the plans of its parts one after the other. -/
theorem plan_eq_parts (expression : Expression) :
    expression.plan layout =
      (expression.parts.mapM fun part => (one part).plan layout).map List.flatten :=
  forM_check_bind_eq_mapM expression.parts

theorem map_plan_eq_check (expression : Expression) :
    (expression.plan layout).map (fun _ => ()) = expression.check layout := by
  unfold plan
  cases expression.check layout with
  | error fault => rfl
  | ok u => rfl

/-- **Plans are sound.**  A plan is made exactly where the check passes, and the fault is that of
the check.  It is the plans of the parts in their order, and each part has one access, which reads
what the part asks for. -/
theorem plan_sound {bytes : Bytes} {h : Header} (hsize : bytes.length ≤ sizeLimit)
    (hdecode : Header.ofBytes bytes = .ok h) (expression : Expression) :
    (expression.plan h.layout).map (fun _ => ()) = expression.check h.layout ∧
      expression.plan h.layout =
        (expression.parts.mapM fun part => (one part).plan h.layout).map List.flatten ∧
      records.parts = [⟨"x", some 0⟩, ⟨"x", some 1⟩, ⟨"x", some 2⟩, ⟨"v", some 0⟩, ⟨"v", some 1⟩,
        ⟨"v", some 2⟩, ⟨"id", none⟩] ∧
      ∀ accesses, expression.plan h.layout = .ok accesses →
        List.Forall₂ (Selection.ReadBy h.layout) expression.parts accesses := by
  refine ⟨map_plan_eq_check expression, plan_eq_parts expression, rfl, fun accesses hplan => ?_⟩
  obtain ⟨hregular, hinside⟩ := Header.regular_of_ofBytes hsize hdecode
  have htiles := hregular.tiles hinside
  obtain ⟨u, hcheck, haccesses⟩ := bind_eq_ok_iff.mp hplan
  cases haccesses
  have hchecks := forM_eq_ok_iff.mp hcheck
  rw [List.forall₂_map_right_iff]
  exact List.forall₂_same.mpr fun part hpart =>
    Selection.readBy_access hregular.toTabled htiles (hchecks part hpart)

theorem plan_sound_stripedFile :
    let layout := (Header.stripedSection.toHeader 201).layout
    Header.stripedFile.length ≤ sizeLimit ∧
      Header.ofBytes Header.stripedFile = .ok (Header.stripedSection.toHeader 201) ∧
      -- A component of a column, and identifiers that no column stores.
      Selection.ReadBy layout ⟨"v", some 2⟩ ⟨.stored 1 209 48, .f64, 3, some 2⟩ ∧
      Selection.ReadBy layout ⟨"id", none⟩ ⟨.implicitIds 40, .u64, 1, none⟩ ∧
      -- Such identifiers have no components, although the last index is that of a vector.
      ((one ⟨"id", some 2⟩).plan layout).map (fun _ => ()) = .error (.noSuchComponent "id" 2) := by
  intro layout
  have hsize : Header.stripedFile.length ≤ sizeLimit := by decide +kernel
  have hdecode : Header.ofBytes Header.stripedFile = .ok (Header.stripedSection.toHeader 201) := by
    decide +kernel
  have hread : ∀ selection access, (one selection).plan layout = .ok [access] →
      selection.ReadBy layout access := by
    intro selection access hplan
    have hreads := (plan_sound hsize hdecode (one selection)).2.2.2 _ hplan
    exact (List.forall₂_cons.mp hreads).1
  refine ⟨hsize, hdecode, hread _ _ (by decide +kernel), hread _ _ (by decide +kernel), ?_⟩
  exact (plan_sound hsize hdecode (one ⟨"id", some 2⟩)).1.trans (by decide +kernel)

end Expression

end Snapshot
