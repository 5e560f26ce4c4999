import StrategyGraph.Walk.Operand

/-!
# Outcomes of conditions

A condition holds at a bar if both of its operands have values and its operator relates them. The
values are compared exactly.

* `Condition.compare` applies an operator;
* `Condition.outcome` says whether a condition holds at a bar;
* `Condition.outcomeRecord` is the line that it leaves in the log.
-/

namespace StrategyGraph

/-- The operator relates numbers that are in this order. -/
def relates (operator : String) (order : Ordering) : Bool :=
  match operator with
  | ">" => order = .gt
  | "<" => order = .lt
  | ">=" => order ≠ .lt
  | "<=" => order ≠ .gt
  | "==" => order = .eq
  | _ => false

namespace Condition

/-- The operator relates the values. A missing value is related to nothing. -/
def compare (left right : Option Number) (operator : Option String) : Bool :=
  match left, right, operator with
  | some l, some r, some operator => (l.order? r).any (relates operator)
  | _, _, _ => false

/-- The values of both operands at a bar. -/
def operands (c : Condition) (ctx : BarContext) : Except Fault (Option Number × Option Number) := do
  pure (← Operand.resolve ctx c.left, ← Operand.resolve ctx c.right)

/-- The condition holds at a bar. -/
def outcome (c : Condition) (ctx : BarContext) : Except Fault Bool :=
  (c.operands ctx).map fun values => compare values.1 values.2 c.operator

/-- What a log shows for a missing value. -/
def missing : String := "None"

/-- The record of an outcome. -/
def outcomeRecord (c : Condition) (ctx : BarContext) (left right : Option Number) : Log.Record :=
  let shown := fun value : Option Number => (value.map Number.text).getD missing
  Log.info <|
    s!"  [IF] Node {c.nodeId} bar {ctx.index}: " ++ shown left ++ " " ++ c.operator.getD missing
      ++ " " ++ shown right ++ " = " ++ (Json.bool (compare left right c.operator)).literal

/-- The record of the outcome at a bar; none when there is no outcome. -/
def outcomeRecord? (c : Condition) (ctx : BarContext) : Option Log.Record :=
  match c.operands ctx with
  | .ok (left, right) => some (c.outcomeRecord ctx left right)
  | .error _ => none

end Condition

end StrategyGraph
