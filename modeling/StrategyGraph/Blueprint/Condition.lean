import StrategyGraph.Blueprint.Parameters

/-!
# Conditions

A condition compares two operands. `Condition.read` takes operands and operator from the slots of a
node and gives the operands the labels and values of the parameters they name; an operand whose
parameter was deleted is unbound.
-/

namespace StrategyGraph

/-- A comparison of two operands. -/
structure Condition where
  /-- The id of the node. -/
  nodeId : String
  /-- The left operand. -/
  left : Option Binding
  /-- The right operand. -/
  right : Option Binding
  /-- The operator. -/
  operator : Option String

namespace Condition

/-- The label of a binding is one of the keys. -/
def labelIn (keys : List String) (b : Binding) : Bool := b.label.string?.any keys.contains

/-- An operand with the label and value of its parameter. It is unbound when its parameter is not
known although parameters are, and no series bears its id or label. -/
def resolve (s : Snapshot) (seriesKeys : List String) (nodeId : String) (b : Binding) :
    Binding × List Warning :=
  match b.parameterId.filter (· ≠ "") with
  | none => (b, [])
  | some id =>
    if s.isEmpty then (b, [])
    else if (s.lookup id).isSome then (s.refresh b, [])
    else if seriesKeys.contains id || labelIn seriesKeys b then (b, [])
    else (b.unbind, [.deletedParameter nodeId id b.label])

/-- The operand in a slot. -/
def operand (s : Snapshot) (seriesKeys : List String) (nodeId : String) (side : Side)
    (slot : Option Variable) : Option Binding × List Warning :=
  match slot.bind Variable.binding with
  | none => (none, [.noOperand nodeId side])
  | some b =>
    let (b, warnings) := resolve s seriesKeys nodeId b
    (some b, warnings)

/-- The condition of a node. -/
def read (s : Snapshot) (seriesKeys : List String) (n : Node) :
    Except Fault (Condition × List Warning) := do
  let slots ← n.readSlots
  let (left, leftWarnings) := operand s seriesKeys n.id .left (slots[0]?.bind id)
  let (right, rightWarnings) := operand s seriesKeys n.id .right (slots[1]?.bind id)
  let operator ← n.operator?
  let warnings := if operator.isNone then [.noOperator n.id] else []
  pure ({ nodeId := n.id, left, right, operator }, leftWarnings ++ rightWarnings ++ warnings)

/-- The conditions of the nodes. -/
def readNodes (s : Snapshot) (seriesKeys : List String) :
    List Node → Except Fault (List Condition × List Warning)
  | [] => .ok ([], [])
  | n :: ns => do
    let (c, warnings) ← read s seriesKeys n
    let (cs, rest) ← readNodes s seriesKeys ns
    pure (c :: cs, warnings ++ rest)

/-- The conditions of a graph, in the order of their nodes. -/
def readAll (s : Snapshot) (seriesKeys : List String) (g : Graph) :
    Except Fault (List Condition × List Warning) :=
  readNodes s seriesKeys (g.ofKind .condition)

end Condition

end StrategyGraph
