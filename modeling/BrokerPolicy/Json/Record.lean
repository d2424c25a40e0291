import BrokerPolicy.Json.Reader

/-!
Reading JSON records: objects of which certain fields are wanted.

* `readRecord fields` returns the values of the wanted fields in the order of `fields`. Every field
  must be there once; members under other names are passed over. A list in place of the object
  gives the fields in order and nothing else.
* What is passed over is only checked for its form (`skipValue`): it may nest as deep as it likes,
  and its numbers and escapes need not denote anything.
-/
namespace BrokerPolicy.Json

/-! ### Passing over a value -/

/-- The rest of the text after a string that is not read, after its opening quote. -/
def skipChars : List Char → Option (List Char)
  | [] => none
  | '"' :: rest => some rest
  | '\\' :: 'u' :: a :: b :: c :: d :: rest =>
    if (hexUnit? a b c d).isSome then skipChars rest else none
  | '\\' :: c :: rest => if (simpleEscape? c).isSome then skipChars rest else none
  | c :: rest => if c.toNat < 0x20 ∨ c = '\\' then none else skipChars rest

/-- The rest of the text after a value that does not nest. -/
def skipScalar : List Char → Option (List Char)
  | 'n' :: 'u' :: 'l' :: 'l' :: rest => some rest
  | 't' :: 'r' :: 'u' :: 'e' :: rest => some rest
  | 'f' :: 'a' :: 'l' :: 's' :: 'e' :: rest => some rest
  | '"' :: rest => skipChars rest
  | cs => (readLiteral cs).map Prod.snd

/-- The rest of the text after a key and its colon. -/
def skipKey (cs : List Char) : Option (List Char) :=
  match skipSpace cs with
  | '"' :: rest => do
    match skipSpace (← skipChars rest) with
    | ':' :: rest => some rest
    | _ => none
  | _ => none

/-- What has been opened and not yet closed. -/
inductive Bracket where
  | array
  | object

mutual

/-- The rest of the text after a value inside the given brackets. Every step takes a character, so
the length of the text bounds the number of steps. -/
def skipOpened : (fuel : Nat) → List Bracket → List Char → Option (List Char)
  | 0, _, _ => none
  | fuel + 1, opened, cs =>
    match skipSpace cs with
    | '[' :: rest =>
      match skipSpace rest with
      | ']' :: rest => skipClosing fuel opened rest
      | rest => skipOpened fuel (.array :: opened) rest
    | '\x7b' :: rest =>
      match skipSpace rest with
      | '\x7d' :: rest => skipClosing fuel opened rest
      | rest => (skipKey rest).bind (skipOpened fuel (.object :: opened))
    | cs => (skipScalar cs).bind (skipClosing fuel opened)

/-- The rest of the text after the brackets that are open behind a value. -/
def skipClosing : (fuel : Nat) → List Bracket → List Char → Option (List Char)
  | _, [], cs => some cs
  | 0, _, _ => none
  | fuel + 1, bracket :: opened, cs =>
    match bracket, skipSpace cs with
    | .array, ',' :: rest => skipOpened fuel (.array :: opened) rest
    | .array, ']' :: rest => skipClosing fuel opened rest
    | .object, ',' :: rest => (skipKey rest).bind (skipOpened fuel (.object :: opened))
    | .object, '\x7d' :: rest => skipClosing fuel opened rest
    | _, _ => none

end

/-- The rest of the text after a well-formed value. -/
def skipValue (cs : List Char) : Option (List Char) :=
  skipOpened (2 * cs.length + 2) [] cs

/-! ### Records -/

/-- What a field may hold. -/
inductive FieldKind where
  | text
  | any

/-- The names of the wanted fields and what each may hold. -/
abbrev Fields := List (String × FieldKind)

/-- The value of a field. The list of records and the record count for the depth. -/
def readField (kind : FieldKind) : Reader Value := fun cs =>
  match kind, readValue (depthLimit - 2) cs with
  | .text, some (.string s, rest) => some (.string s, rest)
  | .text, _ => none
  | .any, result => result

/-- A member of a record: a wanted field with its value, or none. -/
def readWanted (fields : Fields) : Reader (Option (String × Value)) := fun cs => do
  let (key, rest) ← readKey cs
  match List.lookup key fields with
  | some kind =>
    let (v, rest) ← readField kind rest
    return (some (key, v), rest)
  | none => return (none, ← skipValue rest)

/-- The only value of a key. -/
def only? (members : List (String × Value)) (key : String) : Option Value :=
  match members.filter (·.1 == key) with
  | [m] => some m.2
  | _ => none

/-- The values of the wanted fields of an object after its opening brace. -/
def readRecordMembers (fields : Fields) : Reader (List Value) := fun cs => do
  let (members, rest) ← readSequence (readWanted fields) '\x7d' cs
  let values ← fields.mapM fun field => only? (members.filterMap id) field.1
  return (values, rest)

/-- The values of fields in order, every one after a comma, and the closing bracket. -/
def readMoreFields : Fields → Reader (List Value)
  | [], cs =>
    match skipSpace cs with
    | ']' :: rest => some ([], rest)
    | _ => none
  | (_, kind) :: fields, cs =>
    match skipSpace cs with
    | ',' :: rest => do
      let (v, rest) ← readField kind rest
      let (vs, rest) ← readMoreFields fields rest
      return (v :: vs, rest)
    | _ => none

/-- The values of the wanted fields from a list, after its opening bracket. -/
def readRecordItems : Fields → Reader (List Value)
  | [], cs => readMoreFields [] cs
  | (_, kind) :: fields, cs => do
    let (v, rest) ← readField kind cs
    let (vs, rest) ← readMoreFields fields rest
    return (v :: vs, rest)

/-- The values of the wanted fields, after any blanks. -/
def readRecord (fields : Fields) : Reader (List Value) := fun cs =>
  match skipSpace cs with
  | '\x7b' :: rest => readRecordMembers fields rest
  | '[' :: rest => readRecordItems fields rest
  | _ => none

/-- The records that a document lists, each as the values of the wanted fields. -/
def parseRecords? (fields : Fields) (s : String) : Option (List (List Value)) :=
  whole? (readList (readRecord fields)) s

end BrokerPolicy.Json
