import BrokerPolicy.Json.Record
import BrokerPolicy.Policy.Change
import BrokerPolicy.Text.Lines

/-!
Policies as the broker lists them.

A `Row` holds the six columns of a listed policy as texts. The broker lists it in two forms.

* As a table: a header line, then a line for each row with tabs between the columns, and perhaps a
  closing mark. `tableLines` are the lines that count, `Row.ofLine?` reads one of them and
  `Row.toLine` writes one.
* As JSON: an object for each row, in which the definition and the priority may be any value, taken
  by its text. `Row.parseList?` reads the whole listing, `Row.toListed` is the object of a row.

`Row.toJson` is the object under which a row is listed again, and `Row.toPolicy` the generic policy
that a row describes.
-/
namespace BrokerPolicy

/-- A listed policy, column by column. -/
structure Row where
  vhost : String
  name : String
  scope : String
  pattern : String
  definition : String
  priority : String
  deriving DecidableEq

/-! ### Tables -/

/-- The mark that may close a table. -/
def doneMark : String := "...done"

/-- A line that holds no row: blank, or the closing mark. -/
def isNoise (line : List Char) : Bool :=
  let text := Text.trimChars line
  text == [] || text == doneMark.toList

/-- The lines of a table that hold rows. -/
def tableLines (output : String) : List String :=
  (((Text.lines output.toList).drop 1).filter fun line => !isNoise line).map String.ofList

namespace Row

/-- The row on a line, none if it has too few columns; further columns do not count. -/
def ofLine? (line : String) : Option Row :=
  match (Text.splitOn '\t' line.toList).map String.ofList with
  | vhost :: name :: scope :: pattern :: definition :: priority :: _ =>
    some { vhost, name, scope, pattern, definition, priority }
  | _ => none

/-- The line of a row. -/
def toLine (r : Row) : String :=
  "\t".intercalate [r.vhost, r.name, r.scope, r.pattern, r.definition, r.priority]

/-! ### JSON -/

/-- The text of a value, a string without its quotes. -/
def textOf : Json.Value → String
  | .string s => s
  | v => v.text

/-- The fields of a listed policy, in the order in which a list gives them. -/
def fields : Json.Fields :=
  [("vhost", .text), ("name", .text), ("apply-to", .text), ("pattern", .text),
    ("definition", .any), ("priority", .any)]

/-- The row with the values of all fields. -/
def ofValues? : List Json.Value → Option Row
  | [.string vhost, .string name, .string scope, .string pattern, definition, priority] =>
    some {
      vhost, name, scope, pattern
      definition := textOf definition
      priority := textOf priority }
  | _ => none

/-- The rows of a JSON listing. -/
def parseList? (text : String) : Option (List Row) := do
  (← Json.parseRecords? fields text).mapM ofValues?

/-- The object of a row in a listing of the broker, all columns as strings. -/
def toListed (r : Row) : Json.Value :=
  .object [("vhost", .string r.vhost), ("name", .string r.name), ("apply-to", .string r.scope),
    ("pattern", .string r.pattern), ("definition", .string r.definition),
    ("priority", .string r.priority)]

/-- The object under which a row is listed again, with its names in one style. -/
def toJson (r : Row) : Json.Value :=
  .object [("vhost", .string r.vhost), ("name", .string r.name), ("apply_to", .string r.scope),
    ("pattern", .string r.pattern), ("definition", .string r.definition),
    ("priority", .string r.priority)]

/-! ### The policy -/

/-- The generic policy that a row describes. -/
def toPolicy (r : Row) : Except PolicyError Policy := do
  let p := ((Policy.generic r.vhost r.name).setPattern r.pattern).setDefinition r.definition
  return (p.setScope (← Scope.parse r.scope)).setPriority r.priority

end Row

/-- The virtual hosts of a JSON listing. -/
def parseVhosts? (text : String) : Option (List String) := do
  (← Json.parseRecords? [("name", .text)] text).mapM fun
    | [.string name] => some name
    | _ => none

end BrokerPolicy
