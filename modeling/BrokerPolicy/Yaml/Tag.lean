import BrokerPolicy.Text.Digits
import BrokerPolicy.Text.Utf8
import BrokerPolicy.Yaml.Cursor

/-!
The tags, anchors and directives of YAML text, as they are written.

* `takeTag?` takes a tag as a handle and what follows it; `takeName?` the name of an anchor or an
  alias; `takeDirective?` a line that begins with a percent sign.
* A handle is an exclamation mark, or a name between two of them. What follows is spelled in the
  characters of a URI, any other byte as a percent escape.
* What follows a handle is a sequence of bytes and need not be text: the escapes have the shape of
  UTF-8, but overlong forms and surrogates pass. It ends before the first zero byte
  (`untilZero`).
-/
namespace BrokerPolicy.Yaml

/-- A directive. -/
inductive Directive where
  | version (major minor : Nat)
  | tag (handle : String) (expansion : List UInt8)
  deriving DecidableEq

/-- The tag of a type of the core schema. -/
def coreTag (type : String) : List UInt8 :=
  Text.Utf8.encode ("tag:yaml.org,2002:" ++ type).toList

/-- A character of a URI that stands for itself or begins an escape; brackets and commas only where
they cannot be taken for something else. -/
def isUriChar (delimited : Bool) (c : Char) : Bool :=
  isNameChar c || [';', '/', '?', ':', '@', '&', '=', '+', '$', '.', '%', '!', '~', '*', '\'', '(',
    ')'].contains c || (delimited && (c == ',' || c == '[' || c == ']'))

/-- The byte of a percent escape. -/
def escapedByte? : List Char → Option UInt8
  | '%' :: a :: b :: _ =>
    if Text.isHexDigit a ∧ Text.isHexDigit b then some (Text.baseValue 16 [a, b]).toUInt8 else none
  | _ => none

/-- The number of bytes of a character that begins with this one. -/
def escapedLength? (b : UInt8) : Option Nat :=
  if b < 0x80 then some 1
  else if b < 0xC0 then none
  else if b < 0xE0 then some 2
  else if b < 0xF0 then some 3
  else if b < 0xF8 then some 4
  else none

/-- So many escapes of the later bytes of a character. -/
def takeContinuation? : Nat → Cursor → Option (List UInt8 × Cursor)
  | 0, s => some ([], s)
  | n + 1, s => do
    let b ← escapedByte? s.rest
    if b < 0x80 ∨ 0xC0 ≤ b then none
    let (bs, s) ← takeContinuation? n (s.skipMany 3)
    return (b :: bs, s)

/-- The bytes of a character in percent escapes. -/
def takeEscape? (s : Cursor) : Option (List UInt8 × Cursor) := do
  let b ← escapedByte? s.rest
  let (bs, s) ← takeContinuation? ((← escapedLength? b) - 1) (s.skipMany 3)
  return (b :: bs, s)

/-- The bytes of a URI. -/
def takeUri? (delimited : Bool) : (fuel : Nat) → Cursor → Option (List UInt8 × Cursor)
  | 0, _ => none
  | fuel + 1, s =>
    match s.peek?.filter (isUriChar delimited) with
    | none => some ([], s)
    | some c => do
      let (bs, s) ← if c = '%' then takeEscape? s else some (Text.Utf8.encode [c], s.skip)
      let (more, s) ← takeUri? delimited fuel s
      return (bs ++ more, s)

/-- The bytes of a URI, none left out. -/
def takeWholeUri? (delimited : Bool) (s : Cursor) : Option (List UInt8 × Cursor) :=
  takeUri? delimited (s.rest.length + 1) s

/-- The bytes before the first zero. -/
def untilZero (bs : List UInt8) : List UInt8 :=
  bs.takeWhile (· != 0)

/-- An exclamation mark, a name and perhaps another exclamation mark. -/
def takeHandle? (s : Cursor) : Option (List Char × Cursor) :=
  if s.starts '!' then
    let (name, s) := s.skip.takeWhile isNameChar
    if s.starts '!' then some ('!' :: name ++ ['!'], s.skip) else some ('!' :: name, s)
  else none

/-- A tag in angle brackets. -/
def takeVerbatimTag? (s : Cursor) : Option (List Char × List UInt8 × Cursor) := do
  let (uri, s) ← takeWholeUri? true (s.skipMany 2)
  if uri = [] ∨ !s.starts '>' then none
  return ([], untilZero uri, s.skip)

/-- A tag that begins with a handle. What looks like a handle but has no second exclamation mark
belongs to what follows it. An exclamation mark that nothing follows is a tag by itself. -/
def takeShortTag? (s : Cursor) : Option (List Char × List UInt8 × Cursor) := do
  let (handle, s) ← takeHandle? s
  let (uri, s) ← takeWholeUri? false s
  if handle.length ≠ 1 ∧ handle.getLast? = some '!' then
    if uri = [] then none
    return (handle, untilZero uri, s)
  let suffix := Text.Utf8.encode (handle.drop 1) ++ untilZero uri
  if suffix = [] then return ([], Text.Utf8.encode ['!'], s)
  return (['!'], suffix, s)

/-- A tag at a cursor, as its handle and what follows; nothing else may stand right after it. -/
def takeTag? (inFlow : Bool) (s : Cursor) : Option (String × List UInt8 × Cursor) := do
  let (handle, suffix, s) ← if s.peekAt? 1 = some '<' then takeVerbatimTag? s else takeShortTag? s
  if endsWord s.peek? ∨ (inFlow ∧ s.starts ',') then return (String.ofList handle, suffix, s)
  none

/-- The name after the mark of an anchor or an alias. -/
def takeName? (s : Cursor) : Option (String × Cursor) :=
  let (name, s) := s.skip.takeWhile isNameChar
  let ended := endsWord s.peek? || s.peek?.any fun c =>
    ['?', ':', ',', ']', '\x7d', '%', '@', '\x60'].contains c
  if name ≠ [] ∧ ended then some (String.ofList name, s) else none

/-! ### Directives -/

/-- A number of at most nine digits. -/
def takeNumber? (s : Cursor) : Option (Nat × Cursor) :=
  let (ds, s) := s.takeWhile Char.isDigit
  if ds ≠ [] ∧ ds.length ≤ 9 then some (Text.decimalValue ds, s) else none

/-- The version that a directive declares. -/
def takeVersion? (s : Cursor) : Option (Directive × Cursor) := do
  let (major, s) ← takeNumber? s
  if !s.starts '.' then none
  let (minor, s) ← takeNumber? s.skip
  return (.version major minor, s)

/-- The handle that a directive declares, and what it stands for. -/
def takeTagDirective? (s : Cursor) : Option (Directive × Cursor) := do
  let (handle, s) ← takeHandle? s
  if handle ≠ ['!'] ∧ handle.getLast? ≠ some '!' then none
  if !s.peek?.any isBlank then none
  let (expansion, s) ← takeWholeUri? true (s.skipWhile isBlank)
  if expansion = [] ∨ !endsWord s.peek? then none
  return (.tag (String.ofList handle) (untilZero expansion), s)

/-- A directive, with the rest of its line. -/
def takeDirective? (s : Cursor) : Option (Directive × Cursor) := do
  let (name, s) := s.skip.takeWhile isNameChar
  if name = [] ∨ !endsWord s.peek? then none
  let s := s.skipWhile isBlank
  let (directive, s) ←
    if name = "YAML".toList then takeVersion? s
    else if name = "TAG".toList then takeTagDirective? s
    else none
  return (directive, ← s.skipLineEnd?)

end BrokerPolicy.Yaml
