import StrategyGraph.Number.Basic
import StrategyGraph.Text.Quoted

/-!
# JSON values

`Json` keeps integers and doubles apart and an object's fields in the order of their first
appearance.

* `Fields.get?` looks a field up and `Fields.put` sets one, keeping its place;
* `Json.isTruthy` tells the values that count as given from those that count as absent;
* `Json.same` is equality of values: numbers are compared by value, so `1`, `1.0` and `true` are
  the same, and the order of an object's fields does not matter;
* `Json.literal` and `Json.text` show a value inside a message, as `Number.text` does without the
  limit for the digits of integers.
-/

namespace StrategyGraph

/-- A JSON value. -/
inductive Json where
  /-- `null`. -/
  | null
  /-- `true` or `false`. -/
  | bool (b : Bool)
  /-- A number. -/
  | number (n : Number)
  /-- A text. -/
  | string (s : String)
  /-- A list of values. -/
  | array (items : List Json)
  /-- Named values. -/
  | object (fields : List (String × Json))

/-- The named values of an object. -/
abbrev Fields := List (String × Json)

namespace Fields

/-- The value of a field. -/
def get? (fields : Fields) (key : String) : Option Json := fields.lookup key

/-- The value of a field, `null` when there is none. -/
def get (fields : Fields) (key : String) : Json := (fields.get? key).getD .null

/-- The field is there, whatever its value. -/
def has (fields : Fields) (key : String) : Bool := (fields.get? key).isSome

/-- Sets a field: in its place when it is there, at the end when it is new. -/
def put (fields : Fields) (key : String) (value : Json) : Fields :=
  match fields with
  | [] => [(key, value)]
  | (k, v) :: rest => if k = key then (k, value) :: rest else (k, v) :: put rest key value

end Fields

namespace Json

/-- An integer as a value. -/
abbrev ofInt (n : Int) : Json := .number (.int n)

/-- A double as a value. -/
abbrev ofFloat (x : Float) : Json := .number (.float x)

/-- A value or `null`. -/
def ofOption {α : Type} (f : α → Json) : Option α → Json
  | none => .null
  | some a => f a

/-- A list of texts. -/
def strings (texts : List String) : Json := .array (texts.map .string)

/-- The value counts as given: it is not `null`, `false`, zero or empty. -/
def isTruthy : Json → Bool
  | .null => false
  | .bool b => b
  | .number n => !n.isZero
  | .string s => s ≠ ""
  | .array items => !items.isEmpty
  | .object fields => !fields.isEmpty

/-- The value if it counts as given, and else `other`. -/
def orElse (j other : Json) : Json := if j.isTruthy then j else other

/-- The value is `null`. -/
def isNull : Json → Bool
  | .null => true
  | _ => false

/-- The name of the value's type. -/
def typeName : Json → String
  | .null => "NoneType"
  | .bool _ => "bool"
  | .number (.int _) => "int"
  | .number (.float _) => "float"
  | .string _ => "str"
  | .array _ => "list"
  | .object _ => "dict"

/-- The number that a scalar is equal to: truth values are zero and one. -/
def asNumber? : Json → Option Number
  | .bool b => some (.int (if b then 1 else 0))
  | .number n => some n
  | _ => none

mutual

/-- The values are equal. -/
def same : Json → Json → Bool
  | .null, .null => true
  | .string s, .string t => s = t
  | .array xs, .array ys => sameItems xs ys
  | .object fs, .object gs => fs.length = gs.length && sameFields fs gs
  | a, b =>
    match a.asNumber?, b.asNumber? with
    | some m, some n => m.same n
    | _, _ => false

/-- The lists hold equal values in the same order. -/
def sameItems : List Json → List Json → Bool
  | [], [] => true
  | x :: xs, y :: ys => same x y && sameItems xs ys
  | _, _ => false

/-- Every field of the first object is in the second, with an equal value. -/
def sameFields : List (String × Json) → List (String × Json) → Bool
  | [], _ => true
  | (k, v) :: fs, gs =>
    (match gs.lookup k with
      | some w => same v w
      | none => false) && sameFields fs gs

end

mutual

/-- How a value is shown inside another one: texts are quoted. -/
def literal : Json → String
  | .null => "None"
  | .bool b => if b then "True" else "False"
  | .number n => n.text
  | .string s => Text.quote s
  | .array items => "[" ++ literalItems items ++ "]"
  | .object fields => "\x7b" ++ literalFields fields ++ "\x7d"

/-- Values with commas between them. -/
def literalItems : List Json → String
  | [] => ""
  | [x] => literal x
  | x :: xs => literal x ++ ", " ++ literalItems xs

/-- Fields with commas between them. -/
def literalFields : List (String × Json) → String
  | [] => ""
  | [(k, v)] => Text.quote k ++ ": " ++ literal v
  | (k, v) :: fs => Text.quote k ++ ": " ++ literal v ++ ", " ++ literalFields fs

end

/-- How a value is shown in a message: a text stands for itself. -/
def text : Json → String
  | .string s => s
  | j => j.literal

end Json

end StrategyGraph
