/-!
# Variable expressions

An expression names what is to be read from a file: a whole column by its name,
one component of a vector column by name and index, or the particle records that
are assembled from identifiers, positions and velocities.  `render` writes an
expression in its canonical form.
-/

namespace Snapshot

/-- The name under which every file has identifiers, stored or not. -/
def identifierColumn : String := "id"

/-- The name of the position column. -/
def positionColumn : String := "x"

/-- The name of the velocity column. -/
def velocityColumn : String := "v"

/-- The label that stands for particle records. -/
def recordLabel : String := "RockstarParticle"

/-- The canonical text for particle records. -/
def recordText : String := "[" ++ recordLabel ++ "]"

/-- The greatest index of a component. -/
def greatestComponent : Nat := 2

/-- What is read from one column: all of it, or one component. -/
structure Selection where
  name : String
  component : Option Nat
  deriving DecidableEq

/-- What is read from a file. -/
inductive Expression where
  | one (selection : Selection)
  | records
  deriving DecidableEq

namespace Selection

/-- The canonical text of a selection. -/
def render (selection : Selection) : String :=
  match selection.component with
  | none => selection.name
  | some index => selection.name ++ "[" ++ toString index ++ "]"

end Selection

/-- The selections that a particle record is assembled from, in the order of
its fields. -/
def recordParts : List Selection :=
  let components (name : String) : List Selection := [0, 1, 2].map fun axis => ⟨name, some axis⟩
  components positionColumn ++ components velocityColumn ++ [⟨identifierColumn, none⟩]

namespace Expression

/-- The canonical text of an expression. -/
def render : Expression → String
  | one selection => selection.render
  | records => recordText

/-- The selections that an expression needs, in the order of its output. -/
def parts : Expression → List Selection
  | one selection => [selection]
  | records => recordParts

end Expression

end Snapshot
