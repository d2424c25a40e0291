import BrokerPolicy.Yaml.Scalar
import BrokerPolicy.Yaml.Tag

/-!
YAML text as a list of tokens.

Indentation becomes explicit: a block collection is opened by `blockSequence` or `blockMapping` and
closed by `blockEnd`, like brackets. A mapping key needs no mark of its own, so whatever could be
one is remembered (`PossibleKey`) and marked with `key` when a colon follows; it has to stand on one
line and must not be longer than `maxKeyLength`.

* `Scanner` is the state of the scan: the cursor, the tokens so far, the indentations that are open,
  and for the block and every open bracket the possible key.
* `Scanner.step?` takes one token, `Token.ofText?` all of them.
-/
namespace BrokerPolicy.Yaml

/-- A token. -/
inductive Token where
  | directive (d : Directive)
  | documentStart
  | documentEnd
  | streamEnd
  | blockSequence
  | blockMapping
  | blockEnd
  | flowSequence
  | flowSequenceEnd
  | flowMapping
  | flowMappingEnd
  | blockEntry
  | flowEntry
  | key
  | value
  | alias (name : String)
  | anchor (name : String)
  | tag (handle : String) (suffix : List UInt8)
  | scalar (style : Style) (text : String)
  deriving DecidableEq

/-- The number of bytes after which something is no longer taken for a key. -/
def maxKeyLength : Nat := 1024

/-- Something that may turn out to be a mapping key. -/
structure PossibleKey where
  /-- How many tokens come before it. -/
  position : Nat
  place : Place
  /-- It stands where only a key can stand. -/
  isRequired : Bool

/-- The state of a scan. -/
structure Scanner where
  cursor : Cursor
  /-- More than there are characters in the text, so that it bounds every loop. -/
  limit : Nat
  tokens : Array Token := #[]
  /-- The indentation of the innermost block, `-1` outside of all. -/
  indent : Int := -1
  /-- The indentations of the blocks around it. -/
  outerIndents : List Int := []
  /-- The possible key inside the innermost bracket. -/
  key? : Option PossibleKey := none
  /-- Those around it, one for every open bracket. -/
  outerKeys : List (Option PossibleKey) := []
  /-- A key may begin at the cursor. -/
  keyAllowed : Bool := true

namespace Scanner

/-- The cursor is inside brackets. -/
def inFlow (s : Scanner) : Bool :=
  !s.outerKeys.isEmpty

def push (t : Token) (s : Scanner) : Scanner :=
  { s with tokens := s.tokens.push t }

/-- Takes a token of so many characters. -/
def pushMark (t : Token) (length : Nat) (s : Scanner) : Scanner :=
  { s with tokens := s.tokens.push t, cursor := s.cursor.skipMany length }

/-! ### Blanks -/

/-- The cursor at the next token. A line break allows a key outside of brackets; a tab may stand
only where no key may begin. -/
def toToken (fuel : Nat) (s : Scanner) : Scanner :=
  match fuel with
  | 0 => s
  | fuel + 1 =>
    let c := s.cursor
    let c := if c.column == 0 && c.starts '\uFEFF' then c.skip else c
    let c := c.skipWhile fun d => d == ' ' || ((s.inFlow || !s.keyAllowed) && d == '\t')
    let c := c.skipComment
    if c.peek?.any isBreak then
      toToken fuel { s with cursor := c.skipBreak, keyAllowed := s.keyAllowed || !s.inFlow }
    else { s with cursor := c }

/-! ### Keys and indentation -/

/-- A possible key that is too far back for a colon at the place to make it one. -/
def PossibleKey.isStale (k : PossibleKey) (p : Place) : Bool :=
  k.place.line < p.line || k.place.index + maxKeyLength < p.index

/-- A possible key as it stands at a place: none if it is too far back, which is refused for a
required one. -/
def refresh? (p : Place) : Option PossibleKey → Option (Option PossibleKey)
  | none => some none
  | some k => if PossibleKey.isStale k p then (if k.isRequired then none else some none)
    else some (some k)

/-- Forgets the possible keys that are too far back. -/
def forgetStale? (s : Scanner) : Option Scanner := do
  let p := s.cursor.place
  return { s with key? := ← refresh? p s.key?, outerKeys := ← s.outerKeys.mapM (refresh? p) }

/-- Gives up the possible key of the innermost bracket. -/
def dropKey? (s : Scanner) : Option Scanner :=
  if s.key?.any (·.isRequired) then none else some { s with key? := none }

/-- Remembers the cursor as the place of a possible key. -/
def saveKey? (s : Scanner) : Option Scanner :=
  if s.keyAllowed then do
    let s ← s.dropKey?
    return { s with key? := some {
      position := s.tokens.size
      place := s.cursor.place
      isRequired := !s.inFlow && s.indent == s.cursor.column } }
  else some s

/-- Closes the blocks that are indented deeper than a column. -/
def unroll (column : Int) (s : Scanner) : Scanner :=
  if s.inFlow then s else go s.indent s.outerIndents s.tokens
where
  /-- Closes the innermost block and those around it. -/
  go (indent : Int) (outer : List Int) (tokens : Array Token) : Scanner :=
    match outer with
    | [] => { s with indent, outerIndents := [], tokens }
    | next :: rest =>
      if column < indent then go next rest (tokens.push .blockEnd)
      else { s with indent, outerIndents := next :: rest, tokens }

/-- Opens a block at a column, with its token at a position among the tokens, if the column is
deeper than the innermost block. -/
def roll (column position : Nat) (t : Token) (s : Scanner) : Scanner :=
  if !s.inFlow && s.indent < column then
    { s with
      indent := column
      outerIndents := s.indent :: s.outerIndents
      tokens := s.tokens.insertIdxIfInBounds position t }
  else s

/-- Opens a block at the cursor. -/
def rollHere (t : Token) (s : Scanner) : Scanner :=
  s.roll s.cursor.column s.tokens.size t

/-! ### Tokens -/

/-- Closes all blocks before a line that belongs to no document. -/
def leaveDocument? (s : Scanner) : Option Scanner := do
  let s ← (s.unroll (-1)).dropKey?
  return { s with keyAllowed := false }

/-- The end of the text. -/
def streamEnd? (s : Scanner) : Option Scanner := do
  return (← s.leaveDocument?).push .streamEnd

def directive? (s : Scanner) : Option Scanner := do
  let s ← s.leaveDocument?
  let (d, cursor) ← takeDirective? s.cursor
  return { s.push (.directive d) with cursor }

def documentMark? (t : Token) (s : Scanner) : Option Scanner := do
  return (← s.leaveDocument?).pushMark t 3

/-- An opening bracket. -/
def flowStart? (t : Token) (s : Scanner) : Option Scanner := do
  let s ← s.saveKey?
  return { s.pushMark t 1 with
    key? := none
    outerKeys := s.key? :: s.outerKeys
    keyAllowed := true }

/-- A closing bracket. -/
def flowEnd? (t : Token) (s : Scanner) : Option Scanner := do
  let s ← s.dropKey?
  let s := match s.outerKeys with
    | [] => s
    | key? :: outerKeys => { s with key?, outerKeys }
  return { s.pushMark t 1 with keyAllowed := false }

def flowEntry? (s : Scanner) : Option Scanner := do
  return { (← s.dropKey?).pushMark .flowEntry 1 with keyAllowed := true }

/-- The dash of a block sequence. -/
def blockEntry? (s : Scanner) : Option Scanner := do
  if !s.inFlow && !s.keyAllowed then none
  let s ← (s.rollHere .blockSequence).dropKey?
  return { s.pushMark .blockEntry 1 with keyAllowed := true }

/-- The mark of a key that need not be simple. -/
def explicitKey? (s : Scanner) : Option Scanner := do
  if !s.inFlow && !s.keyAllowed then none
  let s ← (s.rollHere .blockMapping).dropKey?
  return { s.pushMark .key 1 with keyAllowed := !s.inFlow }

/-- The colon before a value. If a possible key comes before it, that is a key, and perhaps the
first of a mapping. -/
def value? (s : Scanner) : Option Scanner :=
  match s.key? with
  | some k =>
    let s := { s with tokens := s.tokens.insertIdxIfInBounds k.position .key }
    let s := s.roll k.place.column k.position .blockMapping
    some { s.pushMark .value 1 with key? := none, keyAllowed := false }
  | none => do
    if !s.inFlow && !s.keyAllowed then none
    return { (s.rollHere .blockMapping).pushMark .value 1 with keyAllowed := !s.inFlow }

/-- An anchor or an alias. -/
def name? (make : String → Token) (s : Scanner) : Option Scanner := do
  let s ← s.saveKey?
  let (name, cursor) ← takeName? s.cursor
  return { s.push (make name) with cursor, keyAllowed := false }

def tag? (s : Scanner) : Option Scanner := do
  let s ← s.saveKey?
  let (handle, suffix, cursor) ← takeTag? s.inFlow s.cursor
  return { s.push (.tag handle suffix) with cursor, keyAllowed := false }

/-- A literal or folded scalar. -/
def blockScalar? (style : Style) (s : Scanner) : Option Scanner := do
  let s ← s.dropKey?
  let taken ← Yaml.blockScalar? (style = .folded) s.indent s.limit s.cursor
  return { s.push (.scalar style (String.ofList taken.content)) with
    cursor := taken.cursor
    keyAllowed := true }

def quotedScalar? (style : Style) (s : Scanner) : Option Scanner := do
  let s ← s.saveKey?
  let taken ← Yaml.quotedScalar? (style = .singleQuoted) s.limit s.cursor
  return { s.push (.scalar style (String.ofList taken.content)) with
    cursor := taken.cursor
    keyAllowed := false }

def plainScalar? (s : Scanner) : Option Scanner := do
  let s ← s.saveKey?
  let taken ← Yaml.plainScalar? s.inFlow (s.indent + 1).toNat s.limit s.cursor
  return { s.push (.scalar .plain (String.ofList taken.content)) with
    cursor := taken.cursor
    keyAllowed := taken.broken }

/-- A plain scalar may begin with the character, whatever follows it. -/
def startsPlain (c : Char) : Bool :=
  !(isBlank c || isBreak c || ['-', '?', ':', ',', '[', ']', '\x7b', '\x7d', '#', '&', '*', '!',
    '|', '>', '\'', '"', '%', '@', '\x60'].contains c)

/-- Takes one token; true if it is the last. -/
def step? (s : Scanner) : Option (Bool × Scanner) := do
  let s ← (s.toToken s.limit).forgetStale?
  let s := s.unroll s.cursor.column
  match s.cursor.rest with
  | [] => return (true, ← s.streamEnd?)
  | c :: cs =>
    let spaced := endsWord cs.head?
    let next ←
      if s.cursor.column = 0 ∧ c = '%' then s.directive?
      else if s.cursor.column = 0 ∧ s.cursor.startsMark '-' then s.documentMark? .documentStart
      else if s.cursor.column = 0 ∧ s.cursor.startsMark '.' then s.documentMark? .documentEnd
      else if c = '[' then s.flowStart? .flowSequence
      else if c = '\x7b' then s.flowStart? .flowMapping
      else if c = ']' then s.flowEnd? .flowSequenceEnd
      else if c = '\x7d' then s.flowEnd? .flowMappingEnd
      else if c = ',' then s.flowEntry?
      else if c = '-' ∧ spaced then s.blockEntry?
      else if c = '?' ∧ (s.inFlow ∨ spaced) then s.explicitKey?
      else if c = ':' ∧ (s.inFlow ∨ spaced) then s.value?
      else if c = '*' then s.name? .alias
      else if c = '&' then s.name? .anchor
      else if c = '!' then s.tag?
      else if c = '|' ∧ !s.inFlow then s.blockScalar? .literal
      else if c = '>' ∧ !s.inFlow then s.blockScalar? .folded
      else if c = '\'' then s.quotedScalar? .singleQuoted
      else if c = '"' then s.quotedScalar? .doubleQuoted
      else if startsPlain c ∨ c = '-' ∨ (!s.inFlow ∧ (c = '?' ∨ c = ':')) then s.plainScalar?
      else none
    return (false, next)

/-- Takes the tokens that are left. Every token but the last takes a character. -/
def run? : (fuel : Nat) → Scanner → Option (List Token)
  | 0, _ => none
  | fuel + 1, s =>
    match s.step? with
    | none => none
    | some (true, s) => some s.tokens.toList
    | some (false, s) => run? fuel s

end Scanner

/-- The tokens of a text, none if it is malformed. -/
def Token.ofText? (text : String) : Option (List Token) :=
  let cs := text.toList
  let limit := cs.length + 1
  if cs.all isAllowed then Scanner.run? limit { cursor := ⟨cs, {}⟩, limit } else none

end BrokerPolicy.Yaml
