import BrokerPolicy.Json.Value
import BrokerPolicy.Yaml.Scalar
import BrokerPolicy.Yaml.Tag

/-!
What YAML scalars denote.

A plain scalar is null, a boolean, a number or a string by its spelling (`plainValue?`); any other
scalar is a string. A tag of the core schema forces the type, and the scalar is refused if its
spelling does not fit. A tag that begins with an exclamation mark is meant for one application:
what has it is refused, unless its bytes are no text, in which case it does not count. Integers
have to fit a word of 64 bits; those that do not, but fit 128 bits, are refused, and longer ones are
read as binary numbers.
-/
namespace BrokerPolicy.Yaml

open Json

/-- The text after a word at its start. -/
def after? (word : String) (cs : List Char) : Option (List Char) :=
  word.toList.isPrefixOf? cs

def isNull (cs : List Char) : Bool :=
  ["null", "Null", "NULL", "~"].any (·.toList == cs)

def bool? (cs : List Char) : Option Bool :=
  if ["true", "True", "TRUE"].any (·.toList == cs) then some true
  else if ["false", "False", "FALSE"].any (·.toList == cs) then some false
  else none

/-! ### Integers -/

/-- A digit of a base up to sixteen. -/
def isDigitOf (base : Nat) (c : Char) : Bool :=
  Text.isHexDigit c && Text.digitValue c < base

/-- The number that digits of a base denote, at least one and nothing else. -/
def natOf? (base : Nat) (ds : List Char) : Option Nat :=
  if ds ≠ [] ∧ ds.all (isDigitOf base) then some (Text.baseValue base ds) else none

/-- Digits that begin with a zero and another digit, after a sign: no number. -/
def hasLeadingZero (cs : List Char) : Bool :=
  let ds := match cs with
    | '+' :: ds | '-' :: ds => ds
    | ds => ds
  1 < ds.length && ds.head? == some '0' && ds.all Char.isDigit

/-- The absolute value of an integer, in base ten unless it begins with the mark of another. -/
def magnitude? (cs : List Char) : Option Nat :=
  let inBase (word : String) (base : Nat) : Option Nat := (after? word cs).bind (natOf? base)
  inBase "0x" 16 <|> inBase "0o" 8 <|> inBase "0b" 2 <|>
    (if hasLeadingZero cs then none else natOf? 10 cs)

/-- The integer that a text spells. -/
def int? (cs : List Char) : Option Int :=
  match cs with
  | '-' :: ds => (magnitude? ds).map fun n => -(n : Int)
  | '+' :: ds => (magnitude? ds).map Int.ofNat
  | ds => (magnitude? ds).map Int.ofNat

/-- An integer that is not too long to be read as one. -/
def isInt128 (n : Int) : Bool :=
  -0x80000000000000000000000000000000 ≤ n && n < 0x100000000000000000000000000000000

/-! ### Binary numbers -/

/-- An exponent of ten with its letter. -/
def exponent? : List Char → Option Int
  | 'e' :: cs | 'E' :: cs =>
    match cs with
    | '+' :: ds => (natOf? 10 ds).map Int.ofNat
    | '-' :: ds => (natOf? 10 ds).map fun n => -(n : Int)
    | ds => (natOf? 10 ds).map Int.ofNat
  | [] => some 0
  | _ => none

/-- The finite binary number that decimal digits denote, with a point and an exponent perhaps. There
is at least one digit before the exponent. -/
def decimal? (negative : Bool) (cs : List Char) : Option Binary64 := do
  let whole := cs.takeWhile Char.isDigit
  let rest := cs.dropWhile Char.isDigit
  let (fraction, rest) := match rest with
    | '.' :: rest => (rest.takeWhile Char.isDigit, rest.dropWhile Char.isDigit)
    | rest => ([], rest)
  if whole = [] ∧ fraction = [] then none
  let exponent ← exponent? rest
  Binary64.ofDecimal? negative (Text.decimalValue (whole ++ fraction)) (exponent - fraction.length)

/-- The spellings of what is no finite number; they denote null. -/
def isNonFinite (cs : List Char) : Bool :=
  [".inf", ".Inf", ".INF", "+.inf", "+.Inf", "+.INF", "-.inf", "-.Inf", "-.INF", ".nan", ".NaN",
    ".NAN"].any (·.toList == cs)

/-- The value of a text that spells a binary number. -/
def float? (cs : List Char) : Option Value :=
  if isNonFinite cs then some .null
  else
    let x? := match cs with
      | '+' :: ds => decimal? false ds
      | '-' :: ds => decimal? true ds
      | ds => decimal? false ds
    x?.map fun x => .number (.float x)

/-! ### Scalars -/

/-- The value of an integer; none if it does not fit a word. -/
def intValue? (n : Int) : Option Value :=
  (Integer.ofInt? n).map fun n => .number (.integer n)

/-- The integer of 128 bits that a text spells. -/
def wideInt? (cs : List Char) : Option Int :=
  (int? cs).filter isInt128

/-- The value that a plain scalar denotes. -/
def plainValue? (text : String) : Option Value :=
  let cs := text.toList
  if cs = [] ∨ isNull cs then some .null
  else match bool? cs with
    | some b => some (.bool b)
    | none =>
      match wideInt? cs with
      | some n => intValue? n
      | none =>
        if hasLeadingZero cs then some (.string text)
        else some ((float? cs).getD (.string text))

/-- The value of a scalar with a tag that forces the type, none if it has another tag. -/
def forcedValue? (tag : List UInt8) (text : String) : Option (Option Value) :=
  let cs := text.toList
  if tag = coreTag "bool" then some ((bool? cs).map .bool)
  else if tag = coreTag "int" then some ((wideInt? cs).bind intValue?)
  else if tag = coreTag "float" then some (float? cs)
  else if tag = coreTag "null" then some (if isNull cs then some .null else none)
  else none

/-- A tag that begins with an exclamation mark. -/
def isMarked (tag : List UInt8) : Bool :=
  tag.head? == some 0x21

/-- A tag that is meant for one application. -/
def isLocalTag (tag : List UInt8) : Bool :=
  isMarked tag && (Text.Utf8.decode? tag).isSome

/-- The value of a scalar whose tag does not count. -/
def untaggedValue? (style : Style) (text : String) : Option Value :=
  if style = .plain then plainValue? text else some (.string text)

/-- The value that a scalar denotes. -/
def scalarValue? (tag : Option (List UInt8)) (style : Style) (text : String) : Option Value :=
  match tag with
  | none => untaggedValue? style text
  | some tag =>
    if isLocalTag tag then none
    else if isMarked tag then untaggedValue? style text
    else (forcedValue? tag text).getD (some (.string text))

end BrokerPolicy.Yaml
