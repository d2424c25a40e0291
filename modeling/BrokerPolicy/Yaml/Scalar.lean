import BrokerPolicy.Text.Digits
import BrokerPolicy.Yaml.Cursor

/-!
The scalars of YAML text: plain, quoted and block scalars.

Each of `plainScalar?`, `quotedScalar?` and `blockScalar?` takes a scalar at a cursor and returns
its content and the cursor after it, or none if it is malformed. Every turn of a loop takes a
character, so a `fuel` above the number of characters left is never used up.
-/
namespace BrokerPolicy.Yaml

/-- How a scalar is written. -/
inductive Style where
  | plain
  | singleQuoted
  | doubleQuoted
  | literal
  | folded
  deriving DecidableEq

/-! ### Plain scalars -/

/-- A character that ends a plain scalar inside brackets. -/
def isFlowMark (c : Char) : Bool :=
  c == ',' || c == '[' || c == ']' || c == '\x7b' || c == '\x7d'

/-- The characters of a plain scalar up to a blank, a line end, or what ends the scalar. Inside
brackets a colon right before a bracket, a comma or a question mark is refused. -/
def takeWord (inFlow : Bool) : List Char → Place → Option (List Char × Cursor)
  | [], p => some ([], ⟨[], p⟩)
  | c :: cs, p =>
    if isBlank c || isBreak c then some ([], ⟨c :: cs, p⟩)
    else if inFlow && c == ':' && cs.head?.any fun d => isFlowMark d || d == '?' then none
    else if (c == ':' && endsWord cs.head?) || (inFlow && isFlowMark c) then
      some ([], ⟨c :: cs, p⟩)
    else (takeWord inFlow cs (p.next c)).map fun (w, s) => (c :: w, s)

/-- A scalar that has been read. -/
structure Taken where
  content : List Char
  /-- The cursor after the scalar. -/
  cursor : Cursor
  /-- There is a line break right before the cursor. -/
  broken : Bool := false

/-- The words of a plain scalar and the gaps between them. `gap` stands before the cursor, `margin`
is the least column of its lines. -/
def plainFrom (inFlow : Bool) (margin : Nat) : (fuel : Nat) → Gap → Cursor → Option Taken
  | 0, _, _ => none
  | fuel + 1, gap, s =>
    let stop : Taken := { content := [], cursor := s, broken := !gap.breaks.isEmpty }
    if s.atDocumentMark || s.starts '#' then some stop
    else do
      let (word, after) ← takeWord inFlow s.rest s.place
      if word = [] then return stop
      let content := gap.text ++ word
      if !(after.peek?.any fun c => isBlank c || isBreak c) then
        return { content, cursor := after }
      let (gap, s) ← after.takeGap margin false
      if !inFlow && s.column < margin then
        return { content, cursor := s, broken := !gap.breaks.isEmpty }
      let more ← plainFrom inFlow margin fuel gap s
      return { more with content := content ++ more.content }

/-- A plain scalar at a cursor. -/
def plainScalar? (inFlow : Bool) (margin fuel : Nat) (s : Cursor) : Option Taken :=
  plainFrom inFlow margin fuel {} s

/-! ### Quoted scalars -/

/-- The character that a single letter after a backslash stands for. -/
def simpleEscape? : Char → Option Char
  | '0' => some '\x00'
  | 'a' => some '\x07'
  | 'b' => some '\x08'
  | 't' | '\t' => some '\t'
  | 'n' => some '\n'
  | 'v' => some '\x0b'
  | 'f' => some '\x0c'
  | 'r' => some '\r'
  | 'e' => some '\x1b'
  | ' ' => some ' '
  | '"' => some '"'
  | '/' => some '/'
  | '\\' => some '\\'
  | 'N' => some '\u0085'
  | '_' => some '\u00A0'
  | 'L' => some '\u2028'
  | 'P' => some '\u2029'
  | _ => none

/-- The number of hexadecimal digits that follow a letter after a backslash. -/
def hexEscapeLength? : Char → Option Nat
  | 'x' => some 2
  | 'u' => some 4
  | 'U' => some 8
  | _ => none

/-- The character that an escape stands for, given what follows its backslash, and the number of
characters taken there. -/
def escape? : List Char → Option (Char × Nat)
  | [] => none
  | c :: cs =>
    match hexEscapeLength? c with
    | none => (simpleEscape? c).map fun e => (e, 1)
    | some n =>
      let ds := cs.take n
      let value := Text.baseValue 16 ds
      if ds.length = n ∧ ds.all Text.isHexDigit ∧ value.isValidChar then
        some (Char.ofNat value, n + 1)
      else none

/-- The characters of a quoted scalar up to a blank, a line end or the closing quote; true if they
end with an escaped line break. -/
def takeQuoted (single : Bool) : (fuel : Nat) → Cursor → Option (List Char × Bool × Cursor)
  | 0, _ => none
  | fuel + 1, s =>
    let more (c : Char) (s : Cursor) :=
      (takeQuoted single fuel s).map fun (cs, escaped, s) => (c :: cs, escaped, s)
    match s.peek? with
    | none => some ([], false, s)
    | some c =>
      if isBlank c || isBreak c then some ([], false, s)
      else if single then
        if c ≠ '\'' then more c s.skip
        else if s.peekAt? 1 = some '\'' then more '\'' (s.skipMany 2)
        else some ([], false, s)
      else if c = '"' then some ([], false, s)
      else if c ≠ '\\' then more c s.skip
      else if (s.peekAt? 1).any isBreak then some ([], true, s.skip.skipBreak)
      else do
        let (e, n) ← escape? s.skip.rest
        more e (s.skipMany (n + 1))

/-- The content of a quoted scalar after its opening quote. -/
def quotedFrom (single : Bool) : (fuel : Nat) → Cursor → Option Taken
  | 0, _ => none
  | fuel + 1, s => do
    if s.atDocumentMark || s.rest.isEmpty then none
    let (content, escaped, s) ← takeQuoted single (fuel + 1) s
    if s.starts (if single then '\'' else '"') ∧ !escaped then
      return { content, cursor := s.skip }
    let (gap, s) ← s.takeGap 0 escaped
    let content := content ++ (if escaped then gap.textAfterEscape else gap.text)
    let more ← quotedFrom single fuel s
    return { more with content := content ++ more.content }

/-- A quoted scalar at a cursor. -/
def quotedScalar? (single : Bool) (fuel : Nat) (s : Cursor) : Option Taken :=
  quotedFrom single fuel s.skip

/-! ### Block scalars -/

/-- What happens to the line breaks at the end of a block scalar. -/
inductive Chomping where
  | strip
  | clip
  | keep
  deriving DecidableEq

/-- The indicators after the mark of a block scalar: chomping and indentation, in either order. -/
def blockHeader? (s : Cursor) : Option (Chomping × Option Nat × Cursor) :=
  let chomping? (s : Cursor) : Option Chomping :=
    match s.peek? with
    | some '+' => some .keep
    | some '-' => some .strip
    | _ => none
  let digit? (s : Cursor) : Option Nat :=
    (s.peek?.filter Char.isDigit).map Text.digitValue
  match chomping? s with
  | some chomping =>
    match digit? s.skip with
    | some 0 => none
    | some n => some (chomping, some n, s.skip.skip)
    | none => some (chomping, none, s.skip)
  | none =>
    match digit? s with
    | some 0 => none
    | some n =>
      match chomping? s.skip with
      | some chomping => some (chomping, some n, s.skip.skip)
      | none => some (.clip, some n, s.skip)
    | none => some (.clip, none, s)

/-- The empty lines at a cursor, and the indentation of the line after them. While the indentation
is not known it is the widest seen, and `deepest` is the widest so far. A tab in the indentation is
refused. -/
def takeEmptyLines (known : Option Nat) : (fuel : Nat) → (deepest : Nat) → Cursor →
    Option (List Char × Nat × Cursor)
  | 0, _, _ => none
  | fuel + 1, deepest, s =>
    let width := match known with
      | none => (s.rest.takeWhile (· == ' ')).length
      | some n => ((s.rest.take (n - s.column)).takeWhile (· == ' ')).length
    let s := s.skipMany width
    let deepest := max deepest s.column
    if s.starts '\t' ∧ known.all (s.column < ·) then none
    else if s.peek?.any isBreak then
      let (brk, s) := s.takeBreak
      (takeEmptyLines known fuel deepest s).map fun (breaks, deepest, s) =>
        (brk ++ breaks, deepest, s)
    else some ([], deepest, s)

/-- The lines of a block scalar with the given indentation. `leading` is the break before the next
line, `trailing` those of the empty lines after it, `wasBlank` says that the line before begins with
a blank. Returns the content and the breaks that are left at the end. -/
def blockLines (isFolded : Bool) (indent : Nat) : (fuel : Nat) → (leading trailing : List Char) →
    (wasBlank : Bool) → Cursor → Option (List Char × List Char × List Char × Cursor)
  | 0, _, _, _, _ => none
  | fuel + 1, leading, trailing, wasBlank, s =>
    if s.column ≠ indent ∨ s.rest.isEmpty then some ([], leading, trailing, s)
    else do
      let isIndented := s.peek?.any isBlank
      let gap :=
        if isFolded ∧ leading = ['\n'] ∧ !wasBlank ∧ !isIndented then
          if trailing = [] then [' '] else trailing
        else leading ++ trailing
      let (line, s) := s.takeWhile fun c => !isBreak c
      let (leading, s) := s.takeBreak
      let (trailing, _, s) ← takeEmptyLines (some indent) (fuel + 1) 0 s
      let (more, result) ← blockLines isFolded indent fuel leading trailing isIndented s
      return (gap ++ line ++ more, result)

/-- A block scalar at a cursor, inside a block that is indented by `parent`. -/
def blockScalar? (isFolded : Bool) (parent : Int) (fuel : Nat) (s : Cursor) : Option Taken := do
  let (chomping, increment, s) ← blockHeader? s.skip
  let s ← s.skipLineEnd?
  let known := increment.map fun n => (max parent 0).toNat + n
  let (trailing, deepest, s) ← takeEmptyLines known fuel 0 s
  let indent := known.getD (max (max deepest 1) (parent + 1).toNat)
  let (content, leading, trailing, s) ←
    blockLines isFolded indent fuel [] trailing false s
  let tail := match chomping with
    | .strip => []
    | .clip => leading
    | .keep => leading ++ trailing
  return { content := content ++ tail, cursor := s }

end BrokerPolicy.Yaml
