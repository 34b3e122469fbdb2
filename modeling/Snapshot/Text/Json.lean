/-!
# JSON documents

`Json.parse` reads a JSON text into a tree.  A string is kept as the list of its
units, since an escape may denote half of a character; `Json.text?` joins the
halves and refuses one that stands alone.  A number is kept as far as a reader
of whole numbers needs it: its value if it is written as digits only.

A parser takes the text that is left and gives back what follows the part it
read.  The parsers for nested values are bounded by a number of steps; every
value takes at least one character, so the length of the text is enough.
-/

namespace Snapshot

/-- One unit of a string: a character, or the code of an escape. -/
inductive JsonUnit where
  | char (c : Char)
  | escape (code : Nat)
  deriving DecidableEq

/-- A JSON value. -/
inductive Json where
  | null
  | bool (value : Bool)
  /-- A natural number written as digits, none for every other number. -/
  | number (value : Option Nat)
  | string (units : List JsonUnit)
  | array (items : List Json)
  | object (members : List (List JsonUnit × Json))

namespace Json

/-! ## Tokens -/

/-- The four characters that may stand between tokens. -/
def isSpace (c : Char) : Bool :=
  c = ' ' || c = '\n' || c = '\t' || c = '\r'

/-- The text after the spaces at its start. -/
def skipSpace (text : List Char) : List Char :=
  text.dropWhile isSpace

/-- The text after a given word at its start. -/
def afterWord? : List Char → List Char → Option (List Char)
  | [], text => some text
  | _ :: _, [] => none
  | c :: word, d :: text => if c = d then afterWord? word text else none

/-- The value of a hexadecimal digit. -/
def hexValue? (c : Char) : Option Nat :=
  if c.isDigit then some (c.toNat - '0'.toNat)
  else if 'a' ≤ c && c ≤ 'f' then some (c.toNat - 'a'.toNat + 10)
  else if 'A' ≤ c && c ≤ 'F' then some (c.toNat - 'A'.toNat + 10)
  else none

/-- The characters that one-letter escapes stand for. -/
def simpleEscapes : List (Char × Char) :=
  [('"', '"'), ('\\', '\\'), ('/', '/'), ('b', '\x08'), ('f', '\x0c'), ('n', '\n'),
    ('r', '\r'), ('t', '\t')]

/-- The units of a string up to its closing quote, and what follows. -/
def scanString : List Char → Option (List JsonUnit × List Char)
  | [] => none
  | '"' :: rest => some ([], rest)
  | '\\' :: 'u' :: a :: b :: c :: d :: rest => do
    let digits ← [a, b, c, d].mapM hexValue?
    let (units, after) ← scanString rest
    pure (.escape (digits.foldl (fun code digit => 16 * code + digit) 0) :: units, after)
  | '\\' :: letter :: rest => do
    let c ← simpleEscapes.lookup letter
    let (units, after) ← scanString rest
    pure (.char c :: units, after)
  | c :: rest =>
    if c = '\\' || c.toNat < 0x20 then none
    else do
      let (units, after) ← scanString rest
      pure (.char c :: units, after)

/-- One or more digits, and what follows. -/
def scanDigits (text : List Char) : Option (List Char × List Char) :=
  let digits := text.takeWhile Char.isDigit
  if digits = [] then none else some (digits, text.dropWhile Char.isDigit)

/-- The digits of a whole number, which has no leading zero, and what follows. -/
def scanWhole : List Char → Option (List Char × List Char)
  | '0' :: rest => if (rest.head?.map Char.isDigit).getD false then none else some (['0'], rest)
  | text => scanDigits text

/-- The text after a fraction, if there is one. -/
def skipFraction : List Char → Option (Bool × List Char)
  | '.' :: rest => (scanDigits rest).map fun (_, after) => (true, after)
  | text => some (false, text)

/-- The text after an exponent, if there is one. -/
def skipExponent : List Char → Option (Bool × List Char)
  | e :: rest =>
    if e = 'e' || e = 'E' then
      let unsigned := match rest with
        | sign :: after => if sign = '+' || sign = '-' then after else rest
        | [] => []
      (scanDigits unsigned).map fun (_, after) => (true, after)
    else some (false, e :: rest)
  | [] => some (false, [])

/-- A number without sign. -/
def scanUnsigned (negative : Bool) (text : List Char) : Option (Json × List Char) := do
  let (digits, afterWhole) ← scanWhole text
  let (fraction, afterFraction) ← skipFraction afterWhole
  let (exponent, after) ← skipExponent afterFraction
  let value := digits.foldl (fun value digit => 10 * value + (digit.toNat - '0'.toNat)) 0
  pure (.number (if negative || fraction || exponent then none else some value), after)

/-! ## Values -/

mutual

/-- A value and what follows it. -/
def parseValue : Nat → List Char → Option (Json × List Char)
  | 0, _ => none
  | steps + 1, text =>
    match skipSpace text with
    | 'n' :: rest => (afterWord? ['u', 'l', 'l'] rest).map fun after => (.null, after)
    | 't' :: rest => (afterWord? ['r', 'u', 'e'] rest).map fun after => (.bool true, after)
    | 'f' :: rest => (afterWord? ['a', 'l', 's', 'e'] rest).map fun after => (.bool false, after)
    | '"' :: rest => (scanString rest).map fun (units, after) => (.string units, after)
    | '-' :: rest => scanUnsigned true rest
    | '[' :: rest =>
      match skipSpace rest with
      | ']' :: after => some (.array [], after)
      | items => (parseItems steps items).map fun (values, after) => (.array values, after)
    | '\x7b' :: rest =>
      match skipSpace rest with
      | '\x7d' :: after => some (.object [], after)
      | members => (parseMembers steps members).map fun (values, after) => (.object values, after)
    | other => scanUnsigned false other

/-- The items of an array up to its closing bracket. -/
def parseItems : Nat → List Char → Option (List Json × List Char)
  | 0, _ => none
  | steps + 1, text => do
    let (first, afterFirst) ← parseValue steps text
    match skipSpace afterFirst with
    | ']' :: after => pure ([first], after)
    | ',' :: rest =>
      let (others, after) ← parseItems steps rest
      pure (first :: others, after)
    | _ => none

/-- The members of an object up to its closing brace. -/
def parseMembers : Nat → List Char → Option (List (List JsonUnit × Json) × List Char)
  | 0, _ => none
  | steps + 1, text => do
    let (key, afterKey) ← match skipSpace text with
      | '"' :: rest => scanString rest
      | _ => none
    let rest ← match skipSpace afterKey with
      | ':' :: rest => some rest
      | _ => none
    let (value, afterValue) ← parseValue steps rest
    match skipSpace afterValue with
    | '\x7d' :: after => pure ([(key, value)], after)
    | ',' :: more =>
      let (others, after) ← parseMembers steps more
      pure ((key, value) :: others, after)
    | _ => none

end

/-- The value that a whole text denotes. -/
def parse (text : String) : Option Json := do
  let (value, after) ← parseValue (text.length + 1) text.toList
  if skipSpace after = [] then some value else none

/-! ## Strings -/

/-- The code is the first half of a character. -/
def isHighHalf (code : Nat) : Bool := 0xd800 ≤ code && code < 0xdc00

/-- The code is the second half of a character. -/
def isLowHalf (code : Nat) : Bool := 0xdc00 ≤ code && code < 0xe000

/-- The characters of a string, if no half of one stands alone. -/
def text? : List JsonUnit → Option (List Char)
  | [] => some []
  | .char c :: rest => (text? rest).map (c :: ·)
  | .escape high :: .escape low :: rest =>
    if isHighHalf high && isLowHalf low then
      let code := 0x10000 + (high - 0xd800) * 0x400 + (low - 0xdc00)
      (text? rest).map (Char.ofNat code :: ·)
    else if isHighHalf high || isLowHalf high then none
    else (text? (.escape low :: rest)).map (Char.ofNat high :: ·)
  | .escape code :: rest =>
    if isHighHalf code || isLowHalf code then none
    else (text? rest).map (Char.ofNat code :: ·)

end Json

end Snapshot
