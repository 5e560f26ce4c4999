import StrategyGraph.Expression.Evaluate
import StrategyGraph.Walk.Context

/-!
# Operands

The value of an operand at a bar. An operand names a series by the id or label of its parameter or
by its value; it is a number; or its value is an expression over the price and the entry price. An
operand without text means the price if its label mentions the close.

* `Binding.keys` lists the names under which the series of an operand is looked for;
* `Operand.ofText` is the value of an expression at a bar;
* `Operand.resolve` is the value of an operand.
-/

namespace StrategyGraph

/-- The names under which the series of an operand is looked for, the first one that counts
first. -/
def Binding.keys (b : Binding) : List Json :=
  [Json.ofOption .string b.parameterId, b.label]
    ++ (b.value.string?.map fun s => Json.string (Text.strip s)).toList

namespace Operand

variable (ctx : BarContext)

/-- The first series that one of the keys names. -/
def seriesNamed? : List Json → Except Fault (Option (Series Number))
  | [] => .ok none
  | key :: keys =>
    if !key.isTruthy then seriesNamed? keys
    else do
      key.requireKey
      match key.string?.bind fun name => ctx.series.lookup name with
      | some series => pure (some series)
      | none => seriesNamed? keys

/-- The names that stand for the price of the bar. -/
def priceNames : List String := ["close", "price", "live_price"]

/-- The name that stands for the entry price of the open trade. -/
def entryName : String := "entry"

/-- The values that a text may refer to: the price if it refers to it by any of its names, and the
entry price if it refers to that. -/
def environment (text : String) : Expression.Variables Float := fun name =>
  if name ∈ priceNames ∧ priceNames.any (Expression.references text) then some ctx.price.toFloat
  else if name = entryName ∧ Expression.references text entryName then
    ctx.entry.map Number.toFloat
  else none

/-- The value of an expression; a text that has none stands for no number. -/
def ofText (text : String) : Except Fault (Option Number) :=
  if Expression.references text entryName && ctx.entry.isNone then .ok none
  else
    match Expression.evaluate text (environment ctx text) with
    | .ok x => .ok (some (.float x))
    | .error (.expression _) => .ok none
    | .error fault => .error fault

/-- The text of a value, without blanks around it. -/
def textOf (value : Json) : String := if value.isNull then "" else Text.strip value.text

/-- The label as a text in lower case. -/
def labelText (label : Json) : Except Fault String :=
  match label.orElse (.string "") with
  | .string s => .ok (Text.lower s)
  | label => .error (.noAttribute label.typeName "lower")

/-- A number, unless it is infinite or a NaN. -/
def ofNumber (n : Number) : Except Fault (Option Number) := n.finite?.map (·.map .float)

/-- The value of an operand that names no series. -/
def ofValue (b : Binding) : Except Fault (Option Number) :=
  match b.value with
  | .number n => ofNumber n
  | value => do
    let text := textOf value
    let label ← labelText b.label
    if text = "" then pure (if Text.includes label "close" then some ctx.price else none)
    else ofText ctx text

/-- The value of an operand; none when it is unbound or does not stand for a finite number. -/
def resolve (operand : Option Binding) : Except Fault (Option Number) :=
  match operand.filter Binding.bound with
  | none => .ok none
  | some b => do
    match ← seriesNamed? ctx b.keys with
    | none => ofValue ctx b
    | some series =>
      match ← valueAt series ctx.index with
      | none => pure none
      | some n => ofNumber n

end Operand

end StrategyGraph
