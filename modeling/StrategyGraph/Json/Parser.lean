import StrategyGraph.Json.Basic
import StrategyGraph.Decimal.Reader

/-!
# Reading JSON

`Json.parse` reads a text character by character, with the open brackets on a stack. Besides the
standard grammar it knows the words `NaN`, `Infinity` and `-Infinity`. Of a field that is given
twice the last value stays, in the place of the first. A text that is no JSON is refused, and so
is an integer of more than `Decimal.maxDigits` digits.

Texts are made of characters, and a surrogate that is not one of a pair is none. Wherever one is
escaped, the text has `Json.loneSurrogate` in its place, so texts that differ in such surrogates
only are read as one.
-/

namespace StrategyGraph.Json

/-- Why a text is refused. -/
inductive SyntaxError where
  /-- The text is no JSON. -/
  | malformed
  /-- An integer has too many digits. -/
  | tooLong (digits : Nat)

/-- An open bracket with what was read inside it, the last item or field first. -/
inductive Frame where
  /-- An open array. -/
  | array (items : List Json)
  /-- An open object whose next field has no name yet. -/
  | object (fields : Fields)
  /-- An open object whose next field is named. -/
  | field (fields : Fields) (key : String)

/-- What may come next. -/
inductive Expect where
  /-- A value. -/
  | value
  /-- A value or the end of the array. -/
  | firstItem
  /-- The name of a field. -/
  | key
  /-- The name of a field or the end of the object. -/
  | firstKey
  /-- The colon after a name. -/
  | colon
  /-- A comma or the end of the innermost bracket. -/
  | separator
  /-- Nothing more. -/
  | finish (value : Json)

/-- What the current character belongs to. -/
inductive Scan where
  /-- Nothing that was begun. -/
  | between
  /-- A number or a word, its characters read so far, last first. -/
  | word (cs : List Char)
  /-- A text, its characters read so far, last first; `high` is a first half of a surrogate pair
  that waits for its second half. -/
  | text (cs : List Char) (high : Option Nat)
  /-- The character after a backslash. -/
  | escape (cs : List Char) (high : Option Nat)
  /-- The hexadecimal digits of an escape: their value so far and how many are missing. -/
  | unit (cs : List Char) (high : Option Nat) (value missing : Nat)

/-- The state between two characters. -/
structure Reader where
  /-- The open brackets, the innermost first. -/
  stack : List Frame
  /-- What may come next. -/
  expect : Expect
  /-- What the next character may belong to. -/
  scan : Scan

namespace Reader

/-- Takes a finished value. -/
def push (r : Reader) (v : Json) : Except SyntaxError Reader :=
  match r.expect, r.stack with
  | .value, [] => .ok { r with expect := .finish v, scan := .between }
  | .value, .field fields key :: rest =>
    .ok ⟨.object ((key, v) :: fields) :: rest, .separator, .between⟩
  | .value, .array items :: rest | .firstItem, .array items :: rest =>
    .ok ⟨.array (v :: items) :: rest, .separator, .between⟩
  | _, _ => .error .malformed

/-- Takes a finished text, which is a field's name or a value. -/
def pushText (r : Reader) (s : String) : Except SyntaxError Reader :=
  match r.expect, r.stack with
  | .key, .object fields :: rest | .firstKey, .object fields :: rest =>
    .ok ⟨.field fields s :: rest, .colon, .between⟩
  | _, _ => r.push (.string s)

/-- An object of the fields, given last first. -/
def close (fields : Fields) : Json :=
  .object (fields.foldr (fun f done => Fields.put done f.1 f.2) [])

/-- Takes the value of a bracket that was just closed, standing in the brackets `rest`. -/
def pop (rest : List Frame) (v : Json) : Except SyntaxError Reader :=
  push ⟨rest, .value, .between⟩ v

/-- Takes a bracket, comma or colon. -/
def punctuate (r : Reader) (c : Char) : Except SyntaxError Reader :=
  match c, r.expect, r.stack with
  | '[', .value, _ | '[', .firstItem, _ => .ok ⟨.array [] :: r.stack, .firstItem, .between⟩
  | '\x7b', .value, _ | '\x7b', .firstItem, _ => .ok ⟨.object [] :: r.stack, .firstKey, .between⟩
  | ']', .firstItem, .array items :: rest | ']', .separator, .array items :: rest =>
    pop rest (.array items.reverse)
  | '\x7d', .firstKey, .object fields :: rest | '\x7d', .separator, .object fields :: rest =>
    pop rest (close fields)
  | ':', .colon, _ => .ok { r with expect := .value }
  | ',', .separator, .array _ :: _ => .ok { r with expect := .value }
  | ',', .separator, .object _ :: _ => .ok { r with expect := .key }
  | _, _, _ => .error .malformed

end Reader

/-- The digits at the start of a number, and the rest. -/
def spanDigits (cs : List Char) : List Char × List Char := cs.span Char.isDigit

/-- `cs` is empty or an exponent. -/
def isExponent : List Char → Bool
  | [] => true
  | c :: cs =>
    (c = 'e' || c = 'E') &&
      let digits := (Decimal.takeSign cs).2
      !digits.isEmpty && digits.all Char.isDigit

/-- `cs` is empty, a fraction, an exponent, or a fraction and an exponent. -/
def isFraction : List Char → Bool
  | '.' :: cs =>
    let (digits, rest) := spanDigits cs
    !digits.isEmpty && isExponent rest
  | cs => isExponent cs

/-- Reads a number: no plus sign, no zero before another digit, digits on both sides of a point. -/
def readNumber (cs : List Char) : Except SyntaxError Number :=
  let (negative, body) := match cs with
    | '-' :: cs => (true, cs)
    | cs => (false, cs)
  let (whole, rest) := spanDigits body
  if whole.isEmpty || (whole.head? = some '0' && 1 < whole.length) || !isFraction rest then
    .error .malformed
  else if rest.isEmpty then
    if Decimal.maxDigits < whole.length then .error (.tooLong whole.length)
    else
      let n : Int := Decimal.ofDigits (whole.filterMap Text.digit?)
      .ok (.int (if negative then -n else n))
  else
    match Decimal.readDecimal body with
    | some x => .ok (.float (if negative then -x else x))
    | none => .error .malformed

/-- The value of a bare word. -/
def readWord (cs : List Char) : Except SyntaxError Json :=
  match String.ofList cs with
  | "null" => .ok .null
  | "true" => .ok (.bool true)
  | "false" => .ok (.bool false)
  | "NaN" => .ok (.ofFloat Binary64.notANumber)
  | "Infinity" => .ok (.ofFloat Binary64.infinity)
  | "-Infinity" => .ok (.ofFloat (-Binary64.infinity))
  | _ => (readNumber cs).map .number

/-- `c` may stand in a number or a bare word. -/
def isWordChar (c : Char) : Bool :=
  c.isAlphanum || c = '-' || c = '+' || c = '.'

/-- `c` may stand between two parts of a text. -/
def isSpace (c : Char) : Bool := c = ' ' || c = '\t' || c = '\n' || c = '\r'

/-- The character of a one-letter escape. -/
def escaped? : Char → Option Char
  | '"' => some '"'
  | '\\' => some '\\'
  | '/' => some '/'
  | 'b' => some '\x08'
  | 'f' => some '\x0c'
  | 'n' => some '\n'
  | 'r' => some '\r'
  | 't' => some '\t'
  | _ => none

/-- The value of a hexadecimal digit. -/
def hexDigit? (c : Char) : Option Nat :=
  if c.isDigit then some (c.toNat - '0'.toNat)
  else if 'a' ≤ c ∧ c ≤ 'f' then some (c.toNat - 'a'.toNat + 10)
  else if 'A' ≤ c ∧ c ≤ 'F' then some (c.toNat - 'A'.toNat + 10)
  else none

/-- What stands in a text for a surrogate that is not one of a pair, whichever it is. -/
def loneSurrogate : Char := '\ufffd'

/-- The characters read so far, with a waiting first half of a pair taken as alone. -/
def settle (cs : List Char) (high : Option Nat) : List Char :=
  if high.isSome then loneSurrogate :: cs else cs

/-- Takes the UTF-16 unit of an escape. -/
def takeUnit (cs : List Char) (high : Option Nat) (n : Nat) : Scan :=
  if 0xD800 ≤ n ∧ n < 0xDC00 then .text (settle cs high) (some n)
  else if 0xDC00 ≤ n ∧ n < 0xE000 then
    match high with
    | some h => .text (Char.ofNat (0x10000 + (h - 0xD800) * 0x400 + (n - 0xDC00)) :: cs) none
    | none => .text (loneSurrogate :: cs) none
  else .text (Char.ofNat n :: settle cs high) none

namespace Reader

/-- Takes a character that belongs to nothing begun before. -/
def start (r : Reader) (c : Char) : Except SyntaxError Reader :=
  if isSpace c then .ok { r with scan := .between }
  else if c = '"' then .ok { r with scan := .text [] none }
  else if isWordChar c then .ok { r with scan := .word [c] }
  else punctuate { r with scan := .between } c

/-- Takes one character. -/
def step (r : Reader) (c : Char) : Except SyntaxError Reader :=
  match r.scan with
  | .between => r.start c
  | .word cs =>
    if isWordChar c then .ok { r with scan := .word (c :: cs) }
    else do
      let v ← readWord cs.reverse
      let r ← r.push v
      r.start c
  | .text cs high =>
    if c = '"' then r.pushText (String.ofList (settle cs high).reverse)
    else if c = '\\' then .ok { r with scan := .escape cs high }
    else if c.toNat < 0x20 then .error .malformed
    else .ok { r with scan := .text (c :: settle cs high) none }
  | .escape cs high =>
    if c = 'u' then .ok { r with scan := .unit cs high 0 4 }
    else match escaped? c with
      | some e => .ok { r with scan := .text (e :: settle cs high) none }
      | none => .error .malformed
  | .unit cs high value missing =>
    match hexDigit? c with
    | none => .error .malformed
    | some d =>
      let value := 16 * value + d
      if missing ≤ 1 then .ok { r with scan := takeUnit cs high value }
      else .ok { r with scan := .unit cs high value (missing - 1) }

/-- The value that was read when the text ends. -/
def finish (r : Reader) : Except SyntaxError Json := do
  let r ← match r.scan with
    | .between => .ok r
    | .word cs => do
      let v ← readWord cs.reverse
      r.push v
    | _ => .error .malformed
  match r.expect with
  | .finish v => .ok v
  | _ => .error .malformed

end Reader

/-- Reads a JSON text. -/
def parse (s : String) : Except SyntaxError Json := do
  let r ← s.toList.foldlM Reader.step ⟨[], .value, .between⟩
  r.finish

end StrategyGraph.Json
