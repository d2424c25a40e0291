import BrokerPolicy.Yaml.Token

/-!
The nodes of a YAML document.

* `Node` is a scalar, a sequence, a mapping, or an alias of another node. An anchored node and its
  aliases share a number. A new number is the count of the names in use, so an anchor that takes a
  name again leaves the count as it is, and the next new name gets the same number; of two nodes
  with one number the later one counts.
* `Parse.document?` builds the only document of a text: `some none` if there is none, `none` if
  the tokens do not form a text with at most one document. Every nested call or turn of a loop takes
  a token, or ends after the next call, so the number of tokens bounds the calls.
-/
namespace BrokerPolicy.Yaml

/-- What may stand before the content of a node. -/
structure Properties where
  anchor : Option Nat := none
  /-- The name of the tag in bytes, which need not be text. -/
  tag : Option (List UInt8) := none
  deriving DecidableEq

/-- A node of a document. -/
inductive Node where
  | alias (number : Nat)
  | scalar (props : Properties) (style : Style) (text : String)
  | sequence (props : Properties) (items : List Node)
  | mapping (props : Properties) (pairs : List (Node × Node))

/-- The plain empty scalar that stands for a missing node. -/
def Node.missing : Node :=
  .scalar {} .plain ""

/-- The state of a reading: the tokens that are left and the names of the anchors so far. -/
structure Reading where
  tokens : List Token
  names : List (String × Nat) := []

/-- Reads a part of a document, or refuses it. -/
abbrev Parse := StateT Reading Option

namespace Parse

/-- The next token. -/
def peek : Parse Token := do
  match (← get).tokens with
  | [] => failure
  | t :: _ => return t

/-- Passes over a token. -/
def skip : Parse Unit :=
  modify fun r => { r with tokens := r.tokens.drop 1 }

/-- Passes over a token that has to come next. -/
def expect (t : Token) : Parse Unit := do
  if (← peek) = t then skip else failure

/-- Gives a number to an anchor. -/
def declare (name : String) : Parse Nat := do
  let names := (← get).names
  let number := names.length
  let others := names.filter fun n => n.1 != name
  modify fun r => { r with names := (name, number) :: others }
  return number

/-- The number of an anchor. -/
def lookUp (name : String) : Parse Nat := do
  match List.lookup name (← get).names with
  | some number => return number
  | none => failure

/-- The tag handles that are declared. -/
abbrev Handles := List (String × List UInt8)

/-- The handles that need not be declared. -/
def defaultHandles : Handles :=
  [("!", Text.Utf8.encode ['!']), ("!!", coreTag "")]

/-- The name of a tag. -/
def tagName (handles : Handles) (handle : String) (suffix : List UInt8) : Parse (List UInt8) :=
  if handle = "" then return suffix
  else match List.lookup handle handles with
    | some expansion => return expansion ++ suffix
    | none => failure

/-- An anchor and a tag before a node, in either order, each at most once. -/
def properties (handles : Handles) : Parse Properties := do
  match ← peek with
  | .anchor name =>
    skip
    match ← peek with
    | .tag handle suffix =>
      skip
      let tag ← tagName handles handle suffix
      return { anchor := some (← declare name), tag := some tag }
    | _ => return { anchor := some (← declare name) }
  | .tag handle suffix =>
    skip
    match ← peek with
    | .anchor name =>
      skip
      let tag ← tagName handles handle suffix
      return { anchor := some (← declare name), tag := some tag }
    | _ => return { tag := some (← tagName handles handle suffix) }
  | _ => return {}

/-- Where a node stands: what may follow decides what a missing node looks like. -/
inductive Position where
  /-- In a block, or at the start of a document. -/
  | block
  /-- In a block mapping, where the dashes of a sequence need not be indented. -/
  | blockMapping
  /-- Inside brackets. -/
  | flow
  deriving DecidableEq

mutual

/-- A node, not a missing one. -/
def node (handles : Handles) (position : Position) : (fuel : Nat) → Parse Node
  | 0 => failure
  | fuel + 1 => do
    if let .alias name := ← peek then
      skip
      return .alias (← lookUp name)
    let props ← properties handles
    match ← peek, position with
    | .blockEntry, .blockMapping =>
      return .sequence props (← looseItems handles fuel)
    | .scalar style text, _ =>
      skip
      return .scalar props style text
    | .flowSequence, _ =>
      skip
      return .sequence props (← flowItems handles true fuel)
    | .flowMapping, _ =>
      skip
      return .mapping props (← flowPairs handles true fuel)
    | .blockSequence, .block | .blockSequence, .blockMapping =>
      skip
      return .sequence props (← blockItems handles fuel)
    | .blockMapping, .block | .blockMapping, .blockMapping =>
      skip
      return .mapping props (← blockPairs handles fuel)
    | _, _ =>
      if props = {} then failure else return .scalar props .plain ""

/-- A node, or a missing one before certain tokens. -/
def nodeUnless (handles : Handles) (position : Position) (ends : List Token) :
    (fuel : Nat) → Parse Node
  | 0 => failure
  | fuel + 1 => do
    if ends.contains (← peek) then return .missing
    node handles position fuel

/-- The items of a block sequence. -/
def blockItems (handles : Handles) : (fuel : Nat) → Parse (List Node)
  | 0 => failure
  | fuel + 1 => do
    match ← peek with
    | .blockEntry =>
      skip
      let item ← nodeUnless handles .block [.blockEntry, .blockEnd] fuel
      return item :: (← blockItems handles fuel)
    | .blockEnd =>
      skip
      return []
    | _ => failure

/-- The items of a sequence whose dashes are not indented. -/
def looseItems (handles : Handles) : (fuel : Nat) → Parse (List Node)
  | 0 => failure
  | fuel + 1 => do
    match ← peek with
    | .blockEntry =>
      skip
      let item ← nodeUnless handles .block [.blockEntry, .key, .value, .blockEnd] fuel
      return item :: (← looseItems handles fuel)
    | _ => return []

/-- The pairs of a block mapping. -/
def blockPairs (handles : Handles) : (fuel : Nat) → Parse (List (Node × Node))
  | 0 => failure
  | fuel + 1 => do
    match ← peek with
    | .key =>
      skip
      let key ← nodeUnless handles .blockMapping [.key, .value, .blockEnd] fuel
      let value ← blockValue handles fuel
      return (key, value) :: (← blockPairs handles fuel)
    | .blockEnd =>
      skip
      return []
    | _ => failure

/-- The value of a key in a block mapping, which may be missing. -/
def blockValue (handles : Handles) : (fuel : Nat) → Parse Node
  | 0 => failure
  | fuel + 1 => do
    match ← peek with
    | .value =>
      skip
      nodeUnless handles .blockMapping [.key, .value, .blockEnd] fuel
    | _ => return .missing

/-- The items of a sequence in brackets. A pair among them is a mapping of its own. -/
def flowItems (handles : Handles) (isFirst : Bool) : (fuel : Nat) → Parse (List Node)
  | 0 => failure
  | fuel + 1 => do
    if (← peek) = .flowSequenceEnd then
      skip
      return []
    if !isFirst then
      expect .flowEntry
    match ← peek with
    | .flowSequenceEnd =>
      skip
      return []
    | .key =>
      skip
      let pair ← flowPair handles fuel
      return .mapping {} [pair] :: (← flowItems handles false fuel)
    | _ =>
      let item ← node handles .flow fuel
      return item :: (← flowItems handles false fuel)

/-- A pair among the items of a sequence, after the mark of its key. The token after a missing key
is passed over. -/
def flowPair (handles : Handles) : (fuel : Nat) → Parse (Node × Node)
  | 0 => failure
  | fuel + 1 => do
    let ends := [.value, .flowEntry, .flowSequenceEnd]
    let isMissing := ends.contains (← peek)
    let key ← nodeUnless handles .flow ends fuel
    if isMissing then
      skip
    let value ← flowValue handles .flowSequenceEnd fuel
    return (key, value)

/-- The value of a key inside brackets, which may be missing. -/
def flowValue (handles : Handles) (close : Token) : (fuel : Nat) → Parse Node
  | 0 => failure
  | fuel + 1 => do
    match ← peek with
    | .value =>
      skip
      nodeUnless handles .flow [.flowEntry, close] fuel
    | _ => return .missing

/-- The pairs of a mapping in braces. A node without the mark of a key has no value. -/
def flowPairs (handles : Handles) (isFirst : Bool) : (fuel : Nat) → Parse (List (Node × Node))
  | 0 => failure
  | fuel + 1 => do
    if (← peek) = .flowMappingEnd then
      skip
      return []
    if !isFirst then
      expect .flowEntry
    match ← peek with
    | .flowMappingEnd =>
      skip
      return []
    | .key =>
      skip
      let key ← nodeUnless handles .flow [.value, .flowEntry, .flowMappingEnd] fuel
      let value ← flowValue handles .flowMappingEnd fuel
      return (key, value) :: (← flowPairs handles false fuel)
    | _ =>
      let key ← node handles .flow fuel
      return (key, .missing) :: (← flowPairs handles false fuel)

end

/-! ### Documents -/

/-- The directives before a document, each version and handle declared once. -/
def directives (version : Bool) (handles : Handles) : List Token → Option (Handles × List Token)
  | .directive (.version major minor) :: ts =>
    if version || major != 1 || !(minor == 1 || minor == 2) then none
    else directives true handles ts
  | .directive (.tag handle expansion) :: ts =>
    if handles.any (·.1 == handle) then none
    else directives version ((handle, expansion) :: handles) ts
  | ts => some (handles, ts)

/-- The root of a document after the mark that starts it. -/
def root (handles : Handles) (fuel : Nat) : Parse Node := do
  match ← peek with
  | .directive _ | .documentStart | .documentEnd | .streamEnd => return .missing
  | _ => node handles .block fuel

/-- The only document of a list of tokens, if there is one. -/
def document? (ts : List Token) : Option (Option Node) := do
  let fuel := 4 * ts.length + 8
  if ts = [.streamEnd] then return none
  let (declared, rest) ← directives false [] ts
  let handles := declared ++ defaultHandles
  let (node, r) ← match rest with
    | .documentStart :: rest => (root handles fuel).run { tokens := rest }
    | _ => if rest.length = ts.length then (node handles .block fuel).run { tokens := ts } else none
  if r.tokens.dropWhile (· == .documentEnd) = [.streamEnd] then return some node else none

end Parse

/-- The only document of a text, if there is one. -/
def Node.ofText? (text : String) : Option (Option Node) := do
  Parse.document? (← Token.ofText? text)

end BrokerPolicy.Yaml
