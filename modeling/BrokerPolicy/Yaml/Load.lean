import BrokerPolicy.Yaml.Node
import BrokerPolicy.Yaml.Resolve

/-!
Taking data out of the nodes of a document.

* `Load` follows aliases. A document may follow a hundred of them for each of its events, so that a
  short text cannot stand for unbounded data; `Load.run?` sets this limit.
* `Load.value` takes a node as a JSON value, `Load.pairs` and `Load.items` take collections apart. A
  missing node is an empty collection. Nothing may nest deeper than `nestingLimit`.
-/
namespace BrokerPolicy.Yaml

/-- How deep collections may nest. -/
def nestingLimit : Nat := 128

mutual

/-- The number of events that make up a node: one for a scalar or an alias, two for a collection. -/
def Node.events : Node → Nat
  | .alias _ | .scalar .. => 1
  | .sequence _ items => 2 + itemsEvents items
  | .mapping _ pairs => 2 + pairsEvents pairs

/-- The number of events of several nodes. -/
def itemsEvents : List Node → Nat
  | [] => 0
  | n :: ns => n.events + itemsEvents ns

/-- The number of events of several pairs. -/
def pairsEvents : List (Node × Node) → Nat
  | [] => 0
  | (k, v) :: ps => k.events + v.events + pairsEvents ps

end

mutual

/-- The anchored nodes by number, a node before those inside it. -/
def Node.anchored : Node → List (Nat × Node)
  | .alias _ => []
  | .scalar props style text => numbered props (.scalar props style text)
  | .sequence props items => numbered props (.sequence props items) ++ itemsAnchored items
  | .mapping props pairs => numbered props (.mapping props pairs) ++ pairsAnchored pairs
where
  /-- A node with its number, if it has one. -/
  numbered (props : Properties) (n : Node) : List (Nat × Node) :=
    match props.anchor with
    | some number => [(number, n)]
    | none => []

/-- The anchored nodes among several. -/
def itemsAnchored : List Node → List (Nat × Node)
  | [] => []
  | n :: ns => n.anchored ++ itemsAnchored ns

/-- The anchored nodes among several pairs. -/
def pairsAnchored : List (Node × Node) → List (Nat × Node)
  | [] => []
  | (k, v) :: ps => k.anchored ++ v.anchored ++ pairsAnchored ps

end

/-- Takes data out of a document. The state is the number of aliases that may still be followed. -/
abbrev Load := ReaderT (List (Nat × Node)) (StateT Nat Option)

namespace Load

/-- The node itself, or the one that an alias stands for. -/
def follow : Node → Load Node
  | .alias number => do
    match ← get with
    | 0 => failure
    | left + 1 => set left
    match List.lookup number (← read) with
    | some n => return n
    | none => failure
  | n => return n

/-- A tag that a collection may have. -/
def allowed (props : Properties) : Bool :=
  !props.tag.any isLocalTag

/-- The text of a scalar, however it is written. -/
def text (n : Node) : Load String := do
  match ← follow n with
  | .scalar _ _ text => return text
  | _ => failure

/-- The data of pairs, keys before values. -/
def eachPair {α : Type} (load : Node → Load α) : List (Node × Node) → Load (List (String × α))
  | [] => return []
  | (k, v) :: ps => do
    let key ← text k
    let value ← load v
    return (key, value) :: (← eachPair load ps)

/-- A node as a JSON value that nests at most so deep. -/
def value : (depth : Nat) → Node → Load Json.Value
  | 0, n => do
    match ← follow n with
    | .scalar props style text => liftM (scalarValue? props.tag style text)
    | _ => failure
  | depth + 1, n => do
    match ← follow n with
    | .scalar props style text => liftM (scalarValue? props.tag style text)
    | .sequence props items =>
      if allowed props then return .array (← items.mapM (value depth)) else failure
    | .mapping props pairs =>
      if allowed props then return .object (Json.Members.ofList (← eachPair (value depth) pairs))
      else failure
    | .alias _ => failure

/-- The pairs of a mapping, whatever its tag; a missing one has none. -/
def pairs (n : Node) : Load (List (Node × Node)) := do
  match ← follow n with
  | .mapping _ pairs => return pairs
  | .scalar _ .plain "" => return []
  | _ => failure

/-- The items of a sequence, whatever its tag; a missing one has none. -/
def items (n : Node) : Load (List Node) := do
  match ← follow n with
  | .sequence _ items => return items
  | .scalar _ .plain "" => return []
  | _ => failure

/-- A natural number that is written plainly, or as a literal scalar with the tag of integers. -/
def natural (n : Node) : Load Nat := do
  match ← follow n with
  | .scalar props style text =>
    let isNumber := style = .plain ∨
      (style = .literal ∧ props.tag = some (coreTag "int"))
    let magnitude := match text.toList with
      | '+' :: cs => magnitude? cs
      | cs => magnitude? cs
    if isNumber then liftM magnitude else failure
  | _ => failure

/-- The data of a document. -/
def run? {α : Type} (load : Node → Load α) (root : Node) : Option α :=
  (((load root).run root.anchored.reverse).run (100 * root.events)).map Prod.fst

end Load

end BrokerPolicy.Yaml
