import Snapshot.Expression.Parse
import Snapshot.Header.Basic

/-!
# Planning a read

A plan is the list of column accesses that an expression needs, in the order of
its output.  The selections are checked against the layout first: each has to
name a column, or the identifiers that every file has, and only a vector column
has components.  Identifiers that no column stores are counted up from the
first one, which the header states.
-/

namespace Snapshot

/-- Where the values of an access come from. -/
inductive Source where
  /-- A column, and the bytes that it takes. -/
  | stored (column start length : Nat)
  /-- The identifiers from `start` on. -/
  | implicitIds (start : UInt64)
  deriving DecidableEq

/-- One column access. -/
structure Access where
  source : Source
  type : ElementType
  /-- Stored components per particle. -/
  width : Nat
  /-- The component to read, all of them if there is none. -/
  component : Option Nat
  deriving DecidableEq

/-- All components of a vector column are read. -/
def Access.readsTriples (access : Access) : Bool :=
  1 < access.width && access.component.isNone

namespace Selection

/-- The selection can be read from a file with the given layout. -/
def check (layout : Layout) (selection : Selection) : Except Fault Unit :=
  let column := layout.find? selection.name
  if column.isNone ∧ selection.name ≠ identifierColumn then
    .error (.noSuchVariable selection.name layout.names)
  else
    match selection.component with
    | none => .ok ()
    | some index =>
      if index ≤ greatestComponent && column.any layout.isTriple then .ok ()
      else .error (.noSuchComponent selection.name index)

/-- The access that reads a selection which passed its check. -/
def access (layout : Layout) (selection : Selection) : Access :=
  match layout.find? selection.name with
  | some column =>
    { source := .stored column (layout.columnStart column) (layout.columnLength column)
      type := layout.types.getD column .u64
      width := (layout.widths.getD column 1).toNat
      component := selection.component }
  | none =>
    { source := .implicitIds layout.firstId
      type := .u64
      width := 1
      component := none }

end Selection

namespace Expression

/-- Every part of the expression can be read; the first that cannot decides. -/
def check (layout : Layout) (expression : Expression) : Except Fault Unit :=
  expression.parts.forM (Selection.check layout)

/-- The accesses of an expression. -/
def plan (layout : Layout) (expression : Expression) : Except Fault (List Access) := do
  expression.check layout
  pure (expression.parts.map (Selection.access layout))

/-- The expression that a text spells, if it can be read from the file. -/
def lookUp (layout : Layout) (text : String) : Except Fault Expression := do
  let expression ← parse text
  expression.check layout
  pure expression

/-- All texts resolved, or the fault of the first that cannot be. -/
def lookUpAll (layout : Layout) (texts : List String) : Except Fault (List Expression) :=
  texts.mapM (lookUp layout)

end Expression

end Snapshot
