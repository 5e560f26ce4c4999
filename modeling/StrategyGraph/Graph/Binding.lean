import StrategyGraph.Json.Reading

/-!
# Bindings

A slot of a node is bound to a parameter or to a value. `Binding.ofJson?` reads a binding from a
bare text or number, or from an object that names a parameter; `Variable.ofJson?` reads a slot.
-/

namespace StrategyGraph

/-- What a slot is bound to. -/
structure Binding where
  /-- The id of a parameter. -/
  parameterId : Option String
  /-- The label of a parameter, `null` when there is none. -/
  label : Json
  /-- The value. -/
  value : Json
  /-- Where the parameter comes from. -/
  source : Json := .string "user"
  /-- The parameter exists. -/
  bound : Bool := true

namespace Binding

/-- A binding to a value without a parameter. -/
def ofValue (value : Json) : Binding := { parameterId := none, label := .null, value }

/-- The value of an object; empty when it has none. -/
def valueOf (fields : Fields) : Json := (fields.get? "value").getD (.string "")

/-- A value shown as text; `null` stays. -/
def textOf? (j : Json) : Option String := if j.isNull then none else some j.text

/-- Reads a binding from the fields of an object. -/
def ofFields (fields : Fields) : Binding :=
  let name := fields.get "paramName"
  if name.isTruthy then
    { parameterId := none, label := .string name.text, value := valueOf fields }
  else
    let family := fields.get "family"
    let default := if family.string? = some "system" then "system" else "user"
    { parameterId := textOf? ((fields.get? "parameterId").getD (fields.get "id"))
      label := Json.ofOption .string (textOf? (fields.get "label"))
      value := valueOf fields
      source := (fields.get "source").orElse (.string default) }

/-- Reads a binding. -/
def ofJson? : Json → Option Binding
  | .string s => some (ofValue (.string s))
  | .number n => some (ofValue (.number n))
  | .object fields => if fields.isEmpty then none else some (ofFields fields)
  | _ => none

/-- The binding to a parameter that does not exist. -/
def unbind (b : Binding) : Binding := { b with bound := false }

/-- The binding as a JSON object. -/
def toJson (b : Binding) : Json :=
  .object
    [("parameterId", Json.ofOption .string b.parameterId), ("label", b.label), ("value", b.value),
     ("source", b.source), ("bound", .bool b.bound)]

end Binding

/-- A slot of a node. -/
structure Variable where
  /-- The label of the slot, `null` when there is none. -/
  label : Json
  /-- What the slot is bound to. -/
  binding : Option Binding

namespace Variable

/-- Reads a slot: an object with the binding in its `parameterData`, or a binding itself. -/
def ofJson? (j : Json) : Option Variable :=
  match j with
  | .null => none
  | .object fields =>
    match Fields.get? fields "parameterData" with
    | some data => some ⟨Fields.get fields "label", Binding.ofJson? data⟩
    | none => some ⟨.null, Binding.ofJson? j⟩
  | j => some ⟨.null, Binding.ofJson? j⟩

/-- The slot as a JSON object. -/
def toJson (v : Variable) : Json :=
  .object [("label", v.label), ("binding", Json.ofOption Binding.toJson v.binding)]

end Variable

end StrategyGraph
