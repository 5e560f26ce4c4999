import StrategyGraph.Json.Basic

/-!
# Faults

`Fault` lists what can go wrong in a computation, by cause. `Fault.message` is the only place that
words a fault. Problems of a strategy graph are no faults: they are warnings of its blueprint.
-/

namespace StrategyGraph

/-- Why an expression has no value. -/
inductive ExpressionFault where
  /-- The text is blank, or no text at all. -/
  | empty
  /-- A character that no token starts with. -/
  | unexpectedCharacter (c : Char)
  /-- A token where another one, or none, belongs. -/
  | unexpectedToken (token : String)
  /-- Tokens are missing at the end. -/
  | unexpectedEnd
  /-- A parenthesis is not closed where it should be. -/
  | missingParenthesis
  /-- Parentheses and signs nest deeper than `limit`. -/
  | tooDeep (limit : Nat)
  /-- A name that is no variable. -/
  | unknownName (name : String)
  /-- A divisor is zero. -/
  | divisionByZero
  /-- The value is infinite or no number. -/
  | notFinite

/-- What can go wrong in a computation. -/
inductive Fault where
  /-- An expression has no value. -/
  | expression (fault : ExpressionFault)
  /-- A text is no number. -/
  | unreadableNumber (text : String)
  /-- A text is no integer. -/
  | unreadableInteger (text : String)
  /-- An integer has more digits than may be read. -/
  | tooManyDigits (digits : Nat)
  /-- A NaN where an integer is needed. -/
  | nanToInteger
  /-- An infinity where an integer is needed. -/
  | infinityToInteger
  /-- An integer is larger than every double. -/
  | integerTooLarge
  /-- A quotient of integers is larger than every double. -/
  | quotientTooLarge
  /-- A square is larger than every double. -/
  | squareTooLarge
  /-- No indicator has this name. -/
  | unknownIndicator (kind : Json)
  /-- The value is no indicator window. -/
  | invalidWindow (window : Json)
  /-- The window holds no bar. -/
  | windowTooSmall (window : Int)
  /-- A value of this type is no number. -/
  | notNumeric (typeName : String)
  /-- A value of this type is no integer. -/
  | notIntegral (typeName : String)
  /-- Values of these types have no order. -/
  | notComparable (left right : String)
  /-- A value of this type has no items. -/
  | notIterable (typeName : String)
  /-- A value of this type has no length. -/
  | noLength (typeName : String)
  /-- A value of this type has no fields to test for. -/
  | notContainer (typeName : String)
  /-- A value of this type cannot be a key. -/
  | unhashable (typeName : String)
  /-- A value of this type has no such attribute. -/
  | noAttribute (typeName name : String)
  /-- No entry has this key. -/
  | missingKey (key : Json)
  /-- An index is outside its list. -/
  | indexOutOfRange
  /-- A divisor is zero. -/
  | divisionByZero
  /-- A file does not exist. -/
  | missingFile (path : String)
  /-- A text is no JSON. -/
  | malformedJson
  /-- An option that is needed has no value. -/
  | missingOption (spelling : String)

namespace ExpressionFault

/-- The wording of a fault in an expression. -/
def message : ExpressionFault → String
  | .empty => "Empty expression"
  | .unexpectedCharacter c => "Unexpected character " ++ Text.quote c.toString
  | .unexpectedToken token => "Unexpected token " ++ Text.quote token
  | .unexpectedEnd => "Unexpected end of expression"
  | .missingParenthesis => "Missing closing parenthesis"
  | .tooDeep limit => s!"Expression nested deeper than {limit} levels"
  | .unknownName name => "Unknown name " ++ Text.quote name
  | .divisionByZero => "Division by zero"
  | .notFinite => "Expression is not finite"

end ExpressionFault

namespace Fault

/-- The wording of a fault. -/
def message : Fault → String
  | .expression fault => fault.message
  | .unreadableNumber text => "could not convert string to float: " ++ Text.quote text
  | .unreadableInteger text =>
    "invalid literal for int() with base 10: "
      ++ String.ofList ((Text.quote text).toList.take 200)
  | .tooManyDigits digits =>
    s!"Exceeds the limit (4300 digits) for integer string conversion: value has {digits} digits;"
      ++ " use sys.set_int_max_str_digits() to increase the limit"
  | .nanToInteger => "cannot convert float NaN to integer"
  | .infinityToInteger => "cannot convert float infinity to integer"
  | .integerTooLarge => "int too large to convert to float"
  | .quotientTooLarge => "integer division result too large for a float"
  | .squareTooLarge => "(34, 'Numerical result out of range')"
  | .unknownIndicator kind => "Unknown indicator '" ++ kind.text ++ "'"
  | .invalidWindow window => "Invalid indicator window " ++ window.literal
  | .windowTooSmall window => s!"Indicator window must be >= 1, got {window}"
  | .notNumeric typeName =>
    "float() argument must be a string or a real number, not '" ++ typeName ++ "'"
  | .notIntegral typeName =>
    "int() argument must be a string, a bytes-like object or a real number, not '"
      ++ typeName ++ "'"
  | .notComparable left right =>
    "'>' not supported between instances of '" ++ left ++ "' and '" ++ right ++ "'"
  | .notIterable typeName => "'" ++ typeName ++ "' object is not iterable"
  | .noLength typeName => "object of type '" ++ typeName ++ "' has no len()"
  | .notContainer typeName => "argument of type '" ++ typeName ++ "' is not iterable"
  | .unhashable typeName => "unhashable type: '" ++ typeName ++ "'"
  | .noAttribute typeName name =>
    "'" ++ typeName ++ "' object has no attribute '" ++ name ++ "'"
  | .missingKey key => key.literal
  | .indexOutOfRange => "list index out of range"
  | .divisionByZero => "division by zero"
  | .missingFile path => "[Errno 2] No such file or directory: " ++ Text.quote path
  | .malformedJson => "malformed JSON"
  | .missingOption spelling => "option " ++ spelling ++ " has no value"

end Fault

end StrategyGraph
