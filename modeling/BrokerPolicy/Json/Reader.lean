import BrokerPolicy.Json.Value

/-!
Reading JSON text.

A reader takes a prefix of the text and returns what it denotes with the rest of the text, or none
if the text is malformed. Reading is strict: no comments, no trailing commas, no control characters
in strings, no lone surrogates, nothing after the value.

* `readLiteral`, `readChars`: numbers and strings.
* `readValue depth`: a value that nests at most `depth` deep. `depthLimit` is the limit for a
  document.
* `readSequence`: what stands between brackets, separated by commas, for any reader of one item.
* `Value.parse?`, `Members.parseList?`: whole documents, a value or a list of objects.
-/
namespace BrokerPolicy.Json

/-- Takes a prefix of a text. -/
abbrev Reader (α : Type) := List Char → Option (α × List Char)

/-- How deep arrays and objects may nest in a document. -/
def depthLimit : Nat := 127

/-- The blanks that may stand between the parts of a document. -/
def isSpace (c : Char) : Bool :=
  c == ' ' || c == '\t' || c == '\n' || c == '\r'

/-- The text after the blanks at its start. -/
def skipSpace (cs : List Char) : List Char :=
  cs.dropWhile isSpace

/-! ### Numbers -/

/-- A run of digits, at least one. -/
def readDigits : Reader (List Char) := fun cs =>
  match cs.takeWhile Char.isDigit with
  | [] => none
  | ds => some (ds, cs.dropWhile Char.isDigit)

/-- The digits before the point: no zero in front of another digit. -/
def readWhole : Reader (List Char) := fun cs => do
  let (ds, rest) ← readDigits cs
  if ds.head? = some '0' ∧ ds.length ≠ 1 then none else some (ds, rest)

/-- A point and the digits after it, if there is a point. -/
def readFraction : Reader (Option (List Char))
  | '.' :: cs => do
    let (ds, rest) ← readDigits cs
    return (some ds, rest)
  | cs => some (none, cs)

/-- An exponent after its letter. -/
def readPower : Reader Int
  | '+' :: cs => do
    let (ds, rest) ← readDigits cs
    return (Text.decimalValue ds, rest)
  | '-' :: cs => do
    let (ds, rest) ← readDigits cs
    return (-Text.decimalValue ds, rest)
  | cs => do
    let (ds, rest) ← readDigits cs
    return (Text.decimalValue ds, rest)

/-- An exponent, if there is one. -/
def readExponent : Reader (Option Int)
  | 'e' :: cs | 'E' :: cs => do
    let (n, rest) ← readPower cs
    return (some n, rest)
  | cs => some (none, cs)

/-- A number after its sign. -/
def readUnsigned (negative : Bool) : Reader Literal := fun cs => do
  let (whole, cs) ← readWhole cs
  let (fraction, cs) ← readFraction cs
  let (exponent, cs) ← readExponent cs
  return ({ negative, whole, fraction, exponent }, cs)

/-- A number as it is spelled. -/
def readLiteral : Reader Literal
  | '-' :: cs => readUnsigned true cs
  | cs => readUnsigned false cs

/-! ### Strings -/

/-- The value of four hexadecimal digits. -/
def hexUnit? (a b c d : Char) : Option Nat :=
  let ds := [a, b, c, d]
  if ds.all Text.isHexDigit then some (Text.baseValue 16 ds) else none

/-- The character that a single letter after a backslash stands for. -/
def simpleEscape? : Char → Option Char
  | '"' => some '"'
  | '\\' => some '\\'
  | '/' => some '/'
  | 'b' => some '\x08'
  | 'f' => some '\x0c'
  | 'n' => some '\n'
  | 'r' => some '\r'
  | 't' => some '\t'
  | _ => none

/-- The character that two surrogates stand for together. -/
def joinSurrogates (high low : Nat) : Char :=
  Char.ofNat (0x10000 + (high - 0xD800) * 0x400 + (low - 0xDC00))

/-- The characters of a string after its opening quote, up to the closing one. -/
def readChars : Reader (List Char)
  | [] => none
  | '"' :: rest => some ([], rest)
  | '\\' :: 'u' :: a :: b :: c :: d :: rest =>
    match hexUnit? a b c d with
    | none => none
    | some unit =>
      if 0xDC00 ≤ unit ∧ unit < 0xE000 then none
      else if 0xD800 ≤ unit ∧ unit < 0xDC00 then
        match rest with
        | '\\' :: 'u' :: e :: f :: g :: h :: rest' =>
          match hexUnit? e f g h with
          | none => none
          | some low =>
            if 0xDC00 ≤ low ∧ low < 0xE000 then
              (readChars rest').map fun (cs, r) => (joinSurrogates unit low :: cs, r)
            else none
        | _ => none
      else (readChars rest).map fun (cs, r) => (Char.ofNat unit :: cs, r)
  | '\\' :: c :: rest =>
    match simpleEscape? c with
    | none => none
    | some e => (readChars rest).map fun (cs, r) => (e :: cs, r)
  | c :: rest =>
    if c.toNat < 0x20 ∨ c = '\\' then none
    else (readChars rest).map fun (cs, r) => (c :: cs, r)

/-- The text of a string after its opening quote. -/
def readText : Reader String := fun cs =>
  (readChars cs).map fun (s, rest) => (String.ofList s, rest)

/-! ### Arrays and objects -/

/-- The items after the first and the closing bracket. `fuel` bounds their number. -/
def readMore {α : Type} (item : Reader α) (close : Char) : (fuel : Nat) → Reader (List α)
  | 0, _ => none
  | fuel + 1, cs =>
    match skipSpace cs with
    | [] => none
    | c :: rest =>
      if c = close then some ([], rest)
      else if c = ',' then do
        let (x, rest) ← item rest
        let (xs, rest) ← readMore item close fuel rest
        return (x :: xs, rest)
      else none

/-- The items between brackets, separated by commas, after the opening bracket. Every item after the
first follows a comma, so the length of the text bounds their number. -/
def readSequence {α : Type} (item : Reader α) (close : Char) : Reader (List α) := fun cs =>
  match skipSpace cs with
  | [] => none
  | c :: rest =>
    if c = close then some ([], rest)
    else do
      let (x, rest) ← item (c :: rest)
      let (xs, rest) ← readMore item close rest.length rest
      return (x :: xs, rest)

/-- A key and the colon after it. -/
def readKey : Reader String := fun cs =>
  match skipSpace cs with
  | '"' :: rest => do
    let (key, rest) ← readText rest
    match skipSpace rest with
    | ':' :: rest => some (key, rest)
    | _ => none
  | _ => none

/-- A member of an object, given a reader of values. -/
def readMember (value : Reader Value) : Reader (String × Value) := fun cs => do
  let (key, rest) ← readKey cs
  let (v, rest) ← value rest
  return ((key, v), rest)

/-- The members of an object after its opening brace, in the order of their keys. -/
def readMembers (value : Reader Value) : Reader Members := fun cs =>
  (readSequence (readMember value) '\x7d' cs).map fun (ms, rest) => (Members.ofList ms, rest)

/-! ### Values -/

/-- A value that is neither an array nor an object. -/
def readScalar : Reader Value
  | 'n' :: 'u' :: 'l' :: 'l' :: rest => some (.null, rest)
  | 't' :: 'r' :: 'u' :: 'e' :: rest => some (.bool true, rest)
  | 'f' :: 'a' :: 'l' :: 's' :: 'e' :: rest => some (.bool false, rest)
  | '"' :: rest => (readText rest).map fun (s, rest) => (.string s, rest)
  | cs => do
    let (literal, rest) ← readLiteral cs
    return (.number (← literal.number?), rest)

/-- A value that nests at most `depth` deep, after any blanks. -/
def readValue : (depth : Nat) → Reader Value
  | 0, cs => readScalar (skipSpace cs)
  | depth + 1, cs =>
    match skipSpace cs with
    | '[' :: rest =>
      (readSequence (readValue depth) ']' rest).map fun (vs, rest) => (.array vs, rest)
    | '\x7b' :: rest =>
      (readMembers (readValue depth) rest).map fun (ms, rest) => (.object ms, rest)
    | rest => readScalar rest

/-- The result of a reader that leaves nothing but blanks. -/
def whole? {α : Type} (read : Reader α) (s : String) : Option α :=
  match read s.toList with
  | some (x, rest) => if skipSpace rest = [] then some x else none
  | none => none

/-- The value that a document denotes. -/
def Value.parse? (s : String) : Option Value :=
  whole? (readValue depthLimit) s

/-- An object at a given depth, after any blanks. -/
def readObject (depth : Nat) : Reader Members := fun cs =>
  match skipSpace cs with
  | '\x7b' :: rest => readMembers (readValue depth) rest
  | _ => none

/-- A list of items, after any blanks. -/
def readList {α : Type} (item : Reader α) : Reader (List α) := fun cs =>
  match skipSpace cs with
  | '[' :: rest => readSequence item ']' rest
  | _ => none

/-- The objects that a document lists. The list and its objects count for the depth. -/
def Members.parseList? (s : String) : Option (List Members) :=
  whole? (readList (readObject (depthLimit - 2))) s

end BrokerPolicy.Json
