import StrategyGraph.Expression.Token
import StrategyGraph.Json.Reading

/-!
# The value of an expression

The grammar is

    expr   := term (('+' | '-') term)*
    term   := factor (('*' | '/') factor)*
    factor := ('+' | '-') factor | NUMBER | NAME | '(' expr ')'

and an expression is evaluated while it is read, token by token, with what waits for an operand on
a stack. The arithmetic is a parameter, so the reading is the same in any of them.

* `Machine.step` takes one token;
* `evaluateTokens` reads all of them, in any arithmetic;
* `evaluate` is the value of a text in doubles, which must be finite.
-/

namespace StrategyGraph.Expression

/-- Parentheses and signs that are open at the same time are at most this many. -/
def maxDepth : Nat := 64

/-- What the signs of an expression mean. -/
structure Arithmetic (α : Type) where
  /-- The value of a number token. -/
  numeral : List Char → α
  /-- Addition. -/
  add : α → α → α
  /-- Subtraction. -/
  sub : α → α → α
  /-- Multiplication. -/
  mul : α → α → α
  /-- Division by a value that is not zero. -/
  div : α → α → α
  /-- The opposite of a value. -/
  neg : α → α
  /-- The value may not divide. -/
  isZero : α → Bool

/-- What waits for the operand that is being read. -/
inductive Pending (α : Type) where
  /-- A left operand and a plus sign. -/
  | add (left : α)
  /-- A left operand and a minus sign. -/
  | sub (left : α)
  /-- A left operand and a multiplication sign. -/
  | mul (left : α)
  /-- A left operand and a division sign. -/
  | div (left : α)
  /-- A plus sign before a factor. -/
  | plus
  /-- A minus sign before a factor. -/
  | minus
  /-- An open parenthesis. -/
  | paren

/-- The entry counts for the nesting depth. -/
def Pending.nests {α : Type} : Pending α → Bool
  | .plus | .minus | .paren => true
  | _ => false

/-- The state between two tokens. -/
structure Machine (α : Type) where
  /-- What waits for an operand, the innermost first. -/
  pending : List (Pending α)
  /-- The factor or term that was read last; none when an operand comes next. -/
  value : Option α

/-- Values of variables; reading one may fail. -/
abbrev Variables (α : Type) := String → Option (Except Fault α)

namespace Machine

variable {α : Type} (A : Arithmetic α)

/-- A factor is complete: the signs before it are applied, then the product it belongs to. -/
def settleFactor : List (Pending α) → α → Except ExpressionFault (Machine α)
  | .plus :: rest, v => settleFactor rest v
  | .minus :: rest, v => settleFactor rest (A.neg v)
  | .mul a :: rest, v => .ok ⟨rest, some (A.mul a v)⟩
  | .div a :: rest, v =>
    if A.isZero v then .error .divisionByZero else .ok ⟨rest, some (A.div a v)⟩
  | pending, v => .ok ⟨pending, some v⟩

/-- A term is complete: it is added to or subtracted from the sum it belongs to. -/
def settleTerm : List (Pending α) → α → List (Pending α) × α
  | .add a :: rest, v => (rest, A.add a v)
  | .sub a :: rest, v => (rest, A.sub a v)
  | pending, v => (pending, v)

/-- Opens a sign or a parenthesis, unless too many are open. -/
def nest (pending : List (Pending α)) (p : Pending α) : Except ExpressionFault (Machine α) :=
  if maxDepth ≤ pending.countP Pending.nests then .error (.tooDeep maxDepth)
  else .ok ⟨p :: pending, none⟩

/-- A token where an operand must start. -/
def operand (vars : Variables α) (pending : List (Pending α)) (t : Token) :
    Except Fault (Machine α) :=
  let name := String.ofList t.text
  match t.kind with
  | .number => (settleFactor A pending (A.numeral t.text)).mapError .expression
  | .name =>
    match vars name with
    | none => .error (.expression (.unknownName name))
    | some v => do (settleFactor A pending (← v)).mapError .expression
  | .operator =>
    Except.mapError .expression <|
      match t.text with
      | ['+'] => nest pending .plus
      | ['-'] => nest pending .minus
      | ['('] => nest pending .paren
      | _ => .error (.unexpectedToken name)

/-- A token after an operand. -/
def operator (pending : List (Pending α)) (v : α) (t : Token) :
    Except ExpressionFault (Machine α) :=
  let settled := settleTerm A pending v
  match t.kind, t.text with
  | .operator, ['*'] => .ok ⟨.mul v :: pending, none⟩
  | .operator, ['/'] => .ok ⟨.div v :: pending, none⟩
  | .operator, ['+'] => .ok ⟨.add settled.2 :: settled.1, none⟩
  | .operator, ['-'] => .ok ⟨.sub settled.2 :: settled.1, none⟩
  | kind, text =>
    match settled.1 with
    | .paren :: rest =>
      if kind = .operator && text = [')'] then settleFactor A rest settled.2
      else .error .missingParenthesis
    | _ => .error (.unexpectedToken (String.ofList text))

/-- Takes one token. -/
def step (vars : Variables α) (m : Machine α) (t : Token) : Except Fault (Machine α) :=
  match m.value with
  | none => operand A vars m.pending t
  | some v => (operator A m.pending v t).mapError .expression

/-- The value when no token is left. -/
def finish (m : Machine α) : Except ExpressionFault α :=
  match m.value with
  | none => .error .unexpectedEnd
  | some v =>
    match settleTerm A m.pending v with
    | ([], w) => .ok w
    | _ => .error .unexpectedEnd

end Machine

/-- The value of a list of tokens. -/
def evaluateTokens {α : Type} (A : Arithmetic α) (vars : Variables α) (tokens : List Token) :
    Except Fault α := do
  let m ← tokens.foldlM (Machine.step A vars) ⟨[], none⟩
  (m.finish A).mapError .expression

/-- The arithmetic of doubles. -/
def doubles : Arithmetic Float where
  numeral cs := (Decimal.readDecimal cs).getD Binary64.notANumber
  add := (· + ·)
  sub := (· - ·)
  mul := (· * ·)
  div := (· / ·)
  neg := (- ·)
  isZero := (· == 0.0)

/-- The value of a text as an expression. -/
def evaluate (s : String) (vars : Variables Float) : Except Fault Float := do
  if Text.strip s = "" then throw (.expression .empty)
  let tokens ← (tokenize s).mapError .expression
  let v ← evaluateTokens doubles vars tokens
  if v.isFinite then pure v else throw (.expression .notFinite)

/-- The variables that an object gives values of any type to. -/
def variablesOf (fields : Fields) : Variables Float := fun name =>
  (fields.get? name).map Json.toFloat

/-- The value of an expression that may be no text at all. -/
def evaluateJson (expression : Json) (vars : Variables Float) : Except Fault Float :=
  match expression with
  | .string s => evaluate s vars
  | _ => .error (.expression .empty)

end StrategyGraph.Expression
