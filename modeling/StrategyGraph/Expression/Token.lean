import StrategyGraph.Fault
import StrategyGraph.Text.Case
import StrategyGraph.Text.Classes

/-!
# Tokens of an expression

An operand such as `entry * 0.95` is cut into numbers, names and the operators `+ - * / ( )`,
with blanks anywhere between them.

* `Token.scan` cuts a text into tokens and refuses a character that starts none;
* `references` tells whether a name occurs in a text as a token.
-/

namespace StrategyGraph.Expression

/-- The classes of tokens. -/
inductive Kind where
  /-- An unsigned decimal without exponent. -/
  | number
  /-- An ASCII identifier. -/
  | name
  /-- One of the characters `+ - * / ( )`. -/
  | operator
  deriving DecidableEq

/-- A piece of an expression. -/
structure Token where
  /-- The class of the token. -/
  kind : Kind
  /-- Its characters. -/
  text : List Char
  deriving DecidableEq

/-- The name of a class. -/
def Kind.label : Kind → String
  | .number => "num"
  | .name => "name"
  | .operator => "op"

/-- `c` may start a name. -/
def isNameStart (c : Char) : Bool := c.isAlpha || c = '_'

/-- `c` may stand in a name. -/
def isNameChar (c : Char) : Bool := c.isAlphanum || c = '_'

/-- `c` is an operator. -/
def isOperator (c : Char) : Bool := c ∈ ['+', '-', '*', '/', '(', ')']

/-- The longest number at the start of a text: digits with an optional point among or after them,
or a point and digits; empty when there is none. -/
def numberLength (cs : List Char) : Nat :=
  let whole := (cs.takeWhile Text.isDigit).length
  match cs.drop whole with
  | '.' :: rest =>
    let fraction := (rest.takeWhile Text.isDigit).length
    if whole = 0 && fraction = 0 then 0 else whole + 1 + fraction
  | _ => whole

/-- The number of characters of the token at the start of a text that starts with no blank, and
its class. -/
def tokenLength (cs : List Char) : Kind × Nat :=
  match numberLength cs with
  | n + 1 => (.number, n + 1)
  | 0 =>
    match cs with
    | [] => (.operator, 0)
    | c :: rest =>
      if isNameStart c then (.name, 1 + (rest.takeWhile isNameChar).length) else (.operator, 1)

/-- Cuts a text into tokens. The next `skip` characters belong to a token already taken. -/
def Token.scan (skip : Nat) : List Char → Except ExpressionFault (List Token)
  | [] => .ok []
  | c :: cs =>
    match skip with
    | n + 1 => Token.scan n cs
    | 0 =>
      if Text.isBlank c then Token.scan 0 cs
      else
        let (kind, n) := tokenLength (c :: cs)
        if kind = .operator && !isOperator c then .error (.unexpectedCharacter c)
        else (Token.scan (n - 1) cs).map (⟨kind, (c :: cs).take n⟩ :: ·)

/-- The tokens of a text. -/
def tokenize (s : String) : Except ExpressionFault (List Token) := Token.scan 0 s.toList

/-- `name` is a token of the text. A text that cannot be cut into tokens refers to nothing. -/
def references (s name : String) : Bool :=
  match tokenize s with
  | .ok tokens => tokens.any fun t => t.kind = .name && t.text = name.toList
  | .error _ => false

end StrategyGraph.Expression
