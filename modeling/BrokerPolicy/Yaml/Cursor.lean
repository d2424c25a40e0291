/-!
Walking over YAML text.

A `Cursor` is the rest of the text and the `Place` at which it begins. The place counts lines and
columns, and bytes, by which the length of a simple key is limited. Lines end at a line feed, a
carriage return, both together, or one of three other line separators.
-/
namespace BrokerPolicy.Yaml

/-! ### Characters -/

/-- A blank inside a line. -/
def isBlank (c : Char) : Bool :=
  c == ' ' || c == '\t'

/-- A character that ends a line. -/
def isBreak (c : Char) : Bool :=
  c == '\n' || c == '\r' || c == '\u0085' || c == '\u2028' || c == '\u2029'

/-- A blank, the end of a line or the end of the text. -/
def endsWord (c? : Option Char) : Bool :=
  c?.all fun c => isBlank c || isBreak c

/-- A character of names: of anchors, directives and tag handles. -/
def isNameChar (c : Char) : Bool :=
  c.isAlphanum || c == '_' || c == '-'

/-- The characters that a text may contain. -/
def isAllowed (c : Char) : Bool :=
  let n := c.toNat
  n == 0x09 || n == 0x0A || n == 0x0D || (0x20 ≤ n && n ≤ 0x7E) || n == 0x85 ||
    (0xA0 ≤ n && n ≤ 0xD7FF) || (0xE000 ≤ n && n ≤ 0xFFFD) || 0x10000 ≤ n

/-- The break that goes into a scalar for a line separator: a line feed, unless it is one of the two
that are kept. -/
def contentBreak (c : Char) : Char :=
  if c == '\u2028' || c == '\u2029' then c else '\n'

/-! ### Places -/

/-- A place in a text. -/
structure Place where
  index : Nat := 0
  line : Nat := 0
  column : Nat := 0
  deriving DecidableEq

/-- The place after a character of the same line. -/
def Place.next (p : Place) (c : Char) : Place :=
  { p with index := p.index + c.utf8Size, column := p.column + 1 }

/-- The place after a line separator of so many bytes. -/
def Place.newLine (p : Place) (bytes : Nat) : Place where
  index := p.index + bytes
  line := p.line + 1
  column := 0

/-- The rest of a text, and where it begins. -/
structure Cursor where
  rest : List Char
  place : Place := {}

namespace Cursor

/-- The next character. -/
def peek? (s : Cursor) : Option Char :=
  s.rest.head?

/-- The character after so many others. -/
def peekAt? (s : Cursor) (n : Nat) : Option Char :=
  s.rest[n]?

def column (s : Cursor) : Nat :=
  s.place.column

/-- The next character is `c`. -/
def starts (s : Cursor) (c : Char) : Bool :=
  s.peek? == some c

/-- The cursor after the next character. -/
def skip (s : Cursor) : Cursor :=
  match s.rest with
  | [] => s
  | c :: cs => ⟨cs, s.place.next c⟩

/-- The cursor after so many characters. -/
def skipMany (n : Nat) (s : Cursor) : Cursor :=
  n.repeat skip s

/-- The characters that satisfy a condition, and the cursor after them. -/
def takeWhile (p : Char → Bool) (s : Cursor) : List Char × Cursor :=
  let cs := s.rest.takeWhile p
  (cs, ⟨s.rest.dropWhile p, cs.foldl Place.next s.place⟩)

/-- The cursor after the characters that satisfy a condition. -/
def skipWhile (p : Char → Bool) (s : Cursor) : Cursor :=
  (s.takeWhile p).2

/-- The line separator at the cursor as it goes into a scalar, and the cursor after it. At any other
character nothing is taken. -/
def takeBreak (s : Cursor) : List Char × Cursor :=
  match s.rest with
  | '\r' :: '\n' :: cs => (['\n'], ⟨cs, s.place.newLine 2⟩)
  | c :: cs =>
    if isBreak c then ([contentBreak c], ⟨cs, s.place.newLine c.utf8Size⟩) else ([], s)
  | [] => ([], s)

/-- The cursor after the line separator at it, if there is one. -/
def skipBreak (s : Cursor) : Cursor :=
  s.takeBreak.2

/-- The cursor after a comment, if there is one. -/
def skipComment (s : Cursor) : Cursor :=
  if s.starts '#' then s.skipWhile fun c => !isBreak c else s

/-- The cursor on the next line, if nothing but blanks and a comment stand before it. -/
def skipLineEnd? (s : Cursor) : Option Cursor :=
  let s := (s.skipWhile isBlank).skipComment
  if s.peek?.all isBreak then some s.skipBreak else none

/-- A mark of three characters stands alone at the cursor. -/
def startsMark (c : Char) (s : Cursor) : Bool :=
  s.rest.take 3 == [c, c, c] && endsWord (s.peekAt? 3)

/-- A line begins at the cursor with a mark that starts or ends a document. -/
def atDocumentMark (s : Cursor) : Bool :=
  s.column == 0 && (s.startsMark '-' || s.startsMark '.')

end Cursor

/-! ### Folding of lines -/

/-- What stands between two words of a scalar: blanks, or the line breaks among them. -/
structure Gap where
  blanks : List Char := []
  breaks : List Char := []

namespace Gap

/-- The text of a gap. Blanks on a line are kept; a single line feed becomes a space, and of several
breaks the first is dropped if it is a line feed. -/
def text (g : Gap) : List Char :=
  match g.breaks with
  | [] => g.blanks
  | ['\n'] => [' ']
  | '\n' :: more => more
  | breaks => breaks

/-- The text of a gap after a line break that is escaped: only the breaks that follow it. -/
def textAfterEscape (g : Gap) : List Char :=
  g.breaks

end Gap

/-- The gap at a cursor and the cursor after it. `broken` says that a line break came before; then
blanks are indentation, and a tab in the first `margin` columns is refused. -/
def Cursor.takeGap (margin : Nat) (broken : Bool) (s : Cursor) : Option (Gap × Cursor) :=
  go broken s.rest s.place
where
  /-- Adds a break to the gap that follows it. -/
  withBreak (c : Char) (r : Gap × Cursor) : Gap × Cursor :=
    ({ r.1 with breaks := c :: r.1.breaks }, r.2)
  /-- Takes the gap at the start of a text. -/
  go (broken : Bool) : List Char → Place → Option (Gap × Cursor)
    | '\r' :: '\n' :: cs, p => (go true cs (p.newLine 2)).map (withBreak '\n')
    | [], p => some ({}, ⟨[], p⟩)
    | c :: cs, p =>
      if isBreak c then
        (go true cs (p.newLine c.utf8Size)).map (withBreak (contentBreak c))
      else if isBlank c then
        if broken then
          if c = '\t' ∧ p.column < margin then none else go true cs (p.next c)
        else (go false cs (p.next c)).map fun r => ({ r.1 with blanks := c :: r.1.blanks }, r.2)
      else some ({}, ⟨c :: cs, p⟩)

end BrokerPolicy.Yaml
