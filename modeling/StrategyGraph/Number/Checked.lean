import StrategyGraph.Json.Reading

/-!
# Arithmetic on numbers

The sum, difference and product of integers are integers and exact. A quotient is a double, and so
is every result with a double among the operands; integers are rounded to doubles for it. An
integer too large for a double, a quotient too large for one and a divisor zero are faults.

`Checked` is a number or the fault that came in its place: operations hand on the first fault, and a
fault is greater than every number, so that a search for a greatest value finds it.
-/

namespace StrategyGraph

namespace Number

/-- Combines two numbers: integers exactly, otherwise as doubles. -/
def combine (ints : Int → Int → Int) (floats : Float → Float → Float) :
    Number → Number → Except Fault Number
  | .int m, .int n => .ok (.int (ints m n))
  | a, b => do
    let x ← a.toFloat
    let y ← b.toFloat
    pure (.float (floats x y))

/-- The sum. -/
def add : Number → Number → Except Fault Number := combine (· + ·) (· + ·)

/-- The difference. -/
def sub : Number → Number → Except Fault Number := combine (· - ·) (· - ·)

/-- The product. -/
def mul : Number → Number → Except Fault Number := combine (· * ·) (· * ·)

/-- The quotient as a double; that of integers is rounded once. -/
def div : Number → Number → Except Fault Number
  | .int m, .int n =>
    if n = 0 then .error .divisionByZero
    else
      let q := Binary64.ofRatio m.natAbs n.natAbs
      if q.isInf then .error .quotientTooLarge
      else .ok (.float (if (m < 0) = (n < 0) then q else -q))
  | a, b => do
    let x ← a.toFloat
    let y ← b.toFloat
    if y == 0.0 then throw .divisionByZero
    pure (.float (x / y))

/-- The square of a double, unless a finite one has an infinite square. It is rounded to the nearest
double; where a power with exponent two is computed in another way, its last bit may differ. -/
def squareFloat (x : Float) : Except Fault Float :=
  let y := x * x
  if x.isFinite && y.isInf then .error .squareTooLarge else .ok y

/-- The square, for integers exactly and for doubles as `squareFloat` has it. -/
def square : Number → Except Fault Number
  | .int n => .ok (.int (n * n))
  | .float x => (squareFloat x).map .float

/-- The number without its sign. -/
def abs : Number → Number
  | .int n => .int n.natAbs
  | .float x => .float x.abs

/-- The first number is less than the second. -/
def lt (a b : Number) : Bool := a.order? b = some .lt

instance : LT Number := ⟨fun a b => a.lt b = true⟩

instance : DecidableLT Number := fun a b => inferInstanceAs (Decidable (a.lt b = true))

end Number

/-- A number, or the fault that came in its place. -/
structure Checked where
  /-- The number or the fault. -/
  value : Except Fault Number

namespace Checked

/-- A number without fault. -/
def ofNumber (n : Number) : Checked := ⟨.ok n⟩

/-- Combines two numbers that may be faults. -/
def combine (f : Number → Number → Except Fault Number) (a b : Checked) : Checked :=
  ⟨do f (← a.value) (← b.value)⟩

instance : Add Checked := ⟨combine Number.add⟩

instance : Sub Checked := ⟨combine Number.sub⟩

instance : Mul Checked := ⟨combine Number.mul⟩

instance : Div Checked := ⟨combine Number.div⟩

instance : NatCast Checked := ⟨fun n => ofNumber (.int n)⟩

instance : IntCast Checked := ⟨fun n => ofNumber (.int n)⟩

/-- The first is less than the second; a fault is less than nothing. -/
def lt (a b : Checked) : Bool :=
  match a.value, b.value with
  | .error _, _ => false
  | .ok _, .error _ => true
  | .ok m, .ok n => m.lt n

instance : LT Checked := ⟨fun a b => a.lt b = true⟩

instance : DecidableLT Checked := fun a b => inferInstanceAs (Decidable (a.lt b = true))

/-- The number as a double. -/
def toFloat (a : Checked) : Except Fault Float := do (← a.value).toFloat

end Checked

end StrategyGraph
