import Snapshot.Settings.Basic
import Snapshot.Number.Notation
import Snapshot.Worker.Pool
import Snapshot.Read.Variable

/-!
# Showing a snapshot file

The report on a file has its header and the first values of some expressions.
The header's numbers are written plainly, the particle mass with an exponent, and
values in lists with at least one decimal place.  A report ends at the first
expression that cannot be read.
-/

namespace Snapshot.Report

/-- Values that are shown of each expression. -/
def shown : Nat := 5

/-! ## Text -/

/-- The number of a stored element in a given style. -/
def number {type : ElementType} (style : FloatNotation) (e : Element type) : String :=
  match type.format? with
  | none => toString e.toNat
  | some format => style.render format e.toNat

/-- Texts as a list. -/
def list (items : List String) : String :=
  "[" ++ String.intercalate ", " items ++ "]"

/-- Three signed numbers. -/
def span (t : Triple Int64) : String :=
  list (t.toList.map fun n => toString n.toInt)

/-- Three floating-point numbers. -/
def vector {type : ElementType} (t : Triple (Element type)) : String :=
  list (t.toList.map (number .listed))

/-- A particle record. -/
def record (r : Record) : String :=
  s!"RockstarParticle \x7b id: {r.id.toNat}, x: {vector r.position}, v: {vector r.velocity} \x7d"

/-- The name of a byte order. -/
def orderText : ByteOrder → String
  | .little => "Little"
  | .big => "Big"

/-- A text filled up with spaces to a given length. -/
def padded (text : String) (length : Nat) : String :=
  text ++ String.ofList (List.replicate (length - text.length) ' ')

/-- The first values of a buffer. -/
def values : Buffer → String
  | .flat _ values => list ((values.take shown).map (number .listed))
  | .triples _ values => list ((values.take shown).map vector)
  | .records values => list ((values.take shown).map record)

/-! ## The header -/

/-- A line for each column. -/
def columnLines (layout : Layout) : List String :=
  (layout.names.zip (layout.types.zip layout.widths)).map fun (name, type, width) =>
    s!"  {padded name 12} {type.tag} x{width}"

/-- The lines about the header. -/
def headerLines (path : String) (header : Header) : List String :=
  let plain (e : Element .f64) := number .plain e
  let geometry := header.geometry
  let cosmology := header.cosmology
  [s!"=== {path} ===",
    s!"version {header.version} ({orderText header.order} endian)",
    s!"particles: {header.layout.count} of {header.total}",
    s!"span {span geometry.span} origin {span geometry.origin} of {span geometry.totalSpan}",
    s!"z = {plain cosmology.redshift}, Omega_m = {plain cosmology.omegaMatter}, " ++
      s!"Omega_L = {plain cosmology.omegaLambda}, h = {plain cosmology.hubble}, " ++
      s!"L = {plain cosmology.boxSize} Mpc/h, " ++
      s!"mp = {number .scientific cosmology.particleMass} Msun/h"] ++
    columnLines header.layout

/-! ## The expressions -/

/-- The text ends in the label of particle records and a closing bracket. -/
def asksForRecords (text : String) : Bool :=
  text.endsWith (recordLabel ++ "]") || text.endsWith (recordLabel ++ "\x7d")

/-- An empty buffer for an expression, of the shape that its text suggests. -/
def bufferFor (layout : Layout) (text : String) : Buffer :=
  if asksForRecords text then
    .records (List.replicate layout.count ⟨0, Triple.replicate 0, Triple.replicate 0⟩)
  else if (layout.find? text).any layout.isTriple then
    .triples .f64 (List.replicate layout.count (Triple.replicate 0))
  else .flat .f64 (List.replicate layout.count 0)

/-- The path of the only file of a directory that is made for a report. -/
def onlyPath : Path := ⟨"snapshot"⟩

/-- The lines for a list of expressions over a file with the given contents, and
the error that ended them. -/
def expressionLines (contents : Bytes) (layout : Layout) :
    List String → List String × Option ReadError
  | [] => ([], none)
  | text :: rest =>
    let directory := Directory.empty.write onlyPath contents
    let outcome := (readInto directory onlyPath text).run ⟨.fresh true, bufferFor layout text⟩
    match outcome.result with
    | .error error => ([], some error)
    | .ok () =>
      let (lines, error) := expressionLines contents layout rest
      (s!"{text}: {values outcome.state.buffer}" :: lines, error)

/-! ## The report -/

/-- What the program writes, and how it ends. -/
structure Ending where
  output : String
  errors : String
  code : UInt8

/-- Each line with its end. -/
def joined (lines : List String) : String :=
  String.join (lines.map fun line => line ++ "\n")

/-- The contents of a file and its header. -/
def decoded (contents : Except StorageFault Bytes) : Except ReadError (Bytes × Header) := do
  let bytes ← contents.mapError .storage
  let header ← (Header.ofBytes bytes).mapError .fault
  pure (bytes, header)

/-- The report on the file that storage has at a path.  The arguments are the path
and the expressions. -/
def report (storage : String → Except StorageFault Bytes) : List String → Ending
  | [] => ⟨"", "usage: inspect <file.gup> [expression...]\n", 2⟩
  | path :: texts =>
    match decoded (storage path) with
    | .error error => ⟨"", s!"Error: {error.message}\n", 1⟩
    | .ok (contents, header) =>
      let (lines, error) := expressionLines contents header.layout texts
      let output := joined (headerLines path header ++ lines)
      match error with
      | none => ⟨output, "", 0⟩
      | some error => ⟨output, s!"Error: {error.message}\n", 1⟩

end Snapshot.Report
