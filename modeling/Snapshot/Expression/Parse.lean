import Snapshot.Expression.Basic
import Snapshot.Fault
import Snapshot.Text.Blank

/-!
# Parsing an expression

Blanks around an expression do not count.  A text that ends in a closing bracket
is split at the last matching opening bracket: what stands before is a name, what
stands between is an index, and without a name it is the label of a record.
Square and curly brackets mean the same.  Any other text is the name of a column
and must be free of brackets.  An index is a run of ASCII digits of any length,
and is held against the number of components here, before any header is looked
at.
-/

namespace Snapshot

/-- One of the four bracket characters. -/
def isBracket (c : Char) : Bool :=
  c = '[' || c = ']' || c = '\x7b' || c = '\x7d'

/-- The opening bracket for a closing one. -/
def openingOf? (c : Char) : Option Char :=
  if c = ']' then some '['
  else if c = '\x7d' then some '\x7b'
  else none

/-- The parts of a text before and after the last place where a character
stands. -/
def splitAtLast? (c : Char) : List Char → Option (List Char × List Char)
  | [] => none
  | d :: rest =>
    match splitAtLast? c rest with
    | some (before, after) => some (d :: before, after)
    | none => if d = c then some ([], rest) else none

/-- The number that a run of decimal digits denotes. -/
def decimalValue (digits : List Char) : Nat :=
  digits.foldl (fun value digit => 10 * value + (digit.toNat - '0'.toNat)) 0

/-- The greatest index that is reported; longer runs of digits stand for it. -/
def indexLimit : Nat := 0xffffffffffffffff

namespace Expression

/-- The component `index` of a column, if it can have such a component. -/
def ofIndex (name : String) (index : Nat) : Except Fault Expression :=
  if greatestComponent < index then .error (.noSuchComponent name (min index indexLimit))
  else .ok (.one ⟨name, some index⟩)

/-- The expression with a given name before the bracket and a given text inside
it, none if the brackets cannot be read so. -/
def ofBracketed? (name inner : List Char) : Option (Except Fault Expression) :=
  if name = [] then
    if inner = recordLabel.toList then some (.ok .records) else none
  else if name.any isBracket || inner = [] || !inner.all Char.isDigit then none
  else some (ofIndex (String.ofList name) (decimalValue inner))

/-- The expression that a text without surrounding blanks spells, none if it
spells none. -/
def ofTrimmed? (text : List Char) : Option (Except Fault Expression) :=
  match text.getLast?.bind openingOf? with
  | none =>
    if text = [] || text.any isBracket then none
    else some (.ok (.one ⟨String.ofList text, none⟩))
  | some opening =>
    match splitAtLast? opening text.dropLast with
    | none => none
    | some (name, inner) => ofBracketed? name inner

/-- The expression that a text spells. -/
def parse (text : String) : Except Fault Expression :=
  let trimmed := trim text.toList
  (ofTrimmed? trimmed).getD (.error (.badExpression (String.ofList trimmed)))

end Expression

end Snapshot
