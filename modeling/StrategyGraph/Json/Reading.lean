import StrategyGraph.Fault
import StrategyGraph.Decimal.Reader

/-!
# Reading loosely typed values

A payload may hold any JSON value where a number, a list or an object is meant. These functions
take a value for what it is meant to be, or say why it is not that.

* `Json.toFloat` and `Json.toInt` take a value for a number;
* `Json.finite?` takes it for a finite number and finds none where it is not one;
* `Json.items` and `Json.length` take it for a list, `Json.attributes` for an object.
-/

namespace StrategyGraph

namespace Number

/-- The double nearest to a number. -/
def toFloat : Number → Except Fault Float
  | .float x => .ok x
  | .int n =>
    let x := Binary64.ofInt n
    if x.isInf then .error .integerTooLarge else .ok x

/-- The number as a double, unless it is infinite or a NaN. -/
def finite? (n : Number) : Except Fault (Option Float) :=
  n.toFloat.map fun x => if x.isFinite then some x else none

end Number

/-- The integer part of a double. -/
def truncate? (x : Float) : Except Fault Int :=
  if x.isNaN then .error .nanToInteger
  else if x.isInf then .error .infinityToInteger
  else .ok (Binary64.truncate x)

namespace Json

/-- The value as a double. Truth values are zero and one, texts are read. -/
def toFloat : Json → Except Fault Float
  | .bool b => .ok (if b then 1.0 else 0.0)
  | .number n => n.toFloat
  | .string s =>
    match Decimal.readFloat s with
    | some x => .ok x
    | none => .error (.unreadableNumber s)
  | j => .error (.notNumeric j.typeName)

/-- The value as an integer. Fractions are cut off, texts are read. -/
def toInt : Json → Except Fault Int
  | .bool b => .ok (if b then 1 else 0)
  | .number (.int n) => .ok n
  | .number (.float x) => truncate? x
  | .string s =>
    match Decimal.readInt s with
    | .value n => .ok n
    | .malformed => .error (.unreadableInteger s)
    | .tooLong digits => .error (.tooManyDigits digits)
  | j => .error (.notIntegral j.typeName)

/-- The number that a value stands for: a number itself, or a text that reads as one. Truth values
stand for none. -/
def number? : Json → Option Number
  | .number n => some n
  | .string s => (Decimal.readFloat s).map .float
  | _ => none

/-- The finite number that a value stands for, if any. -/
def finite? (j : Json) : Except Fault (Option Float) :=
  match j.number? with
  | none => .ok none
  | some n => n.finite?

/-- The items of a list, the characters of a text, the names of an object's fields. -/
def items : Json → Except Fault (List Json)
  | .array items => .ok items
  | .string s => .ok (s.toList.map fun c => .string c.toString)
  | .object fields => .ok (fields.map fun f => .string f.1)
  | j => .error (.notIterable j.typeName)

/-- The items of a value that counts as given; none of any other value. -/
def itemsIfAny (j : Json) : Except Fault (List Json) :=
  if j.isTruthy then j.items else .ok []

/-- How many items a value has. -/
def length : Json → Except Fault Nat
  | .array items => .ok items.length
  | .string s => .ok s.length
  | .object fields => .ok fields.length
  | j => .error (.noLength j.typeName)

/-- The fields of an object. -/
def fields? : Json → Option Fields
  | .object fields => some fields
  | _ => none

/-- The fields of a value that must be an object. -/
def attributes : Json → Except Fault Fields
  | .object fields => .ok fields
  | j => .error (.noAttribute j.typeName "get")

/-- The text, if the value is one. -/
def string? : Json → Option String
  | .string s => some s
  | _ => none

/-- Lists and objects cannot be keys. -/
def requireKey (j : Json) : Except Fault Unit :=
  match j with
  | .array _ | .object _ => .error (.unhashable j.typeName)
  | _ => .ok ()

end Json

end StrategyGraph
