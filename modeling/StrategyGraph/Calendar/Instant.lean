import StrategyGraph.Calendar.Date
import StrategyGraph.Decimal.Binary64

/-!
# Instants in ISO 8601 notation

A date, a separator of any one character, a time of day and an offset from UTC; everything after
the date may be missing, and without an offset the time is in UTC. Dates are `YYYY-MM-DD`,
`YYYYMMDD`, and the week dates `YYYY-Www-D`, `YYYY-Www`, `YYYYWwwD` and `YYYYWww`. Times of day and
offsets are `HH`, `HH:MM`, `HH:MM:SS`, the same without colons, and a fraction after a point or
comma, cut to microseconds. `Z` stands for the offset zero. Between a time of day and its offset,
one byte more is passed over, or anything after the sixth digit of a fraction.

* `Instant.read?` is the number of microseconds from the beginning of 1970;
* `Instant.millis` is that number in milliseconds, computed through seconds as a double.
-/

namespace StrategyGraph.Calendar

/-- The value of an ASCII digit. -/
def asciiDigit? (c : Char) : Option Nat :=
  if c.isDigit then some (c.toNat - '0'.toNat) else none

/-- A number of exactly `n` digits at the start of a text, and the rest. -/
def takeDigits (n : Nat) (cs : List Char) : Option (Nat × List Char) :=
  if (cs.take n).length = n then
    ((cs.take n).mapM asciiDigit?).map fun ds => (ds.foldl (fun v d => 10 * v + d) 0, cs.drop n)
  else none

/-- The number of characters of the date. Where a week date may or may not have a day of the week,
a hyphen before a digit is the separator, and times are taken to have an even number of digits. -/
def dateLength (cs : List Char) : Nat :=
  if cs.length = 7 then 7
  else
    match cs.drop 4 with
    | '-' :: 'W' :: rest =>
      match rest.drop 2 with
      | '-' :: tail => if (tail.drop 1).head?.any Char.isDigit then 8 else 10
      | _ => 8
    | '-' :: _ => 10
    | 'W' :: _ =>
      let n := 7 + ((cs.drop 7).takeWhile Char.isDigit).length
      if n < 9 then n else if n % 2 = 0 then 7 else 8
    | _ => 8

/-- The number of the day that a date of the given length stands for. -/
def readDate (length : Nat) (cs : List Char) : Option Nat := do
  let (year, cs) ← takeDigits 4 cs
  match cs with
  | '-' :: 'W' :: cs =>
    let (week, cs) ← takeDigits 2 cs
    if length ≤ 8 then weekDayNumber? year week 1
    else match cs with
      | '-' :: cs => do
        let (weekday, _) ← takeDigits 1 cs
        weekDayNumber? year week weekday
      | _ => none
  | 'W' :: cs =>
    let (week, cs) ← takeDigits 2 cs
    if length ≤ 7 then weekDayNumber? year week 1
    else do
      let (weekday, _) ← takeDigits 1 cs
      weekDayNumber? year week weekday
  | '-' :: cs =>
    let (month, cs) ← takeDigits 2 cs
    match cs with
    | '-' :: cs => do
      let (day, _) ← takeDigits 2 cs
      dayNumber? year month day
    | _ => none
  | cs =>
    let (month, cs) ← takeDigits 2 cs
    let (day, _) ← takeDigits 2 cs
    dayNumber? year month day

/-- A time of day, or the size of an offset. -/
structure Clock where
  /-- Hours. -/
  hour : Nat := 0
  /-- Minutes. -/
  minute : Nat := 0
  /-- Seconds. -/
  second : Nat := 0
  /-- Microseconds. -/
  micro : Nat := 0
  /-- Characters are left after the part that was read. -/
  leftover : Bool := false

namespace Clock

/-- The whole seconds. -/
def seconds (c : Clock) : Nat := 3600 * c.hour + 60 * c.minute + c.second

/-- Sets the component number `i`: hours, minutes or seconds. -/
def set (c : Clock) (i v : Nat) : Clock :=
  match i with
  | 0 => { c with hour := v }
  | 1 => { c with minute := v }
  | _ => { c with second := v }

/-- Something is left to read; a NUL character ends the text. -/
def isLeftover (cs : List Char) : Bool := cs.head?.any (· ≠ '\x00')

/-- Reads a fraction of a second; digits after the sixth are passed over. -/
def readFraction (c : Clock) (cs : List Char) : Option Clock := do
  let n := min 6 cs.length
  let (v, rest) ← takeDigits n cs
  some { c with
    micro := v * tenTo (6 - n)
    leftover := isLeftover (rest.dropWhile Char.isDigit) }

/-- Reads the components from number `i` on, of which `more` may follow this one. `colons` tells
whether colons divide them, which the character after the first one decides. A last character after
a component is left over. -/
def readFrom (more : Nat) (i : Nat) (colons : Bool) (c : Clock) (cs : List Char) :
    Option Clock := do
  let (v, rest) ← takeDigits 2 cs
  let c := c.set i v
  match rest with
  | [] => some c
  | [_] => some { c with leftover := isLeftover rest }
  | d :: tail =>
    let colons := if i = 0 then d = ':' else colons
    let next := if colons then tail else rest
    if colons && d = ':' || !colons && d ≠ '.' && d ≠ ',' then
      match more with
      | 0 => c.readFraction next
      | n + 1 => readFrom n (i + 1) colons c next
    else if d = '.' || d = ',' then c.readFraction tail
    else none

/-- Reads a time of day or the size of an offset. -/
def read (cs : List Char) : Option Clock := readFrom 2 0 true {} cs

end Clock

/-- `c` starts an offset. -/
def isOffsetSign (c : Char) : Bool := c = '+' || c = '-'

/-- Reads an offset from its sign on, as microseconds. A whole offset of zero seconds counts as
zero; an offset of a day or more is refused. -/
def readOffset : List Char → Option Int
  | [] => some 0
  | sign :: cs => do
    let c ← Clock.read cs
    if c.leftover then none
    else
      let size := if c.seconds = 0 then 0 else c.seconds * 1000000 + c.micro
      if size < 86400 * 1000000 then some (if sign = '-' then -(size : Int) else size) else none

/-- Reads a time of day and an offset, as microseconds since midnight UTC. What is left after the
time of day is passed over when an offset follows. -/
def readTime (cs : List Char) : Option Int := do
  let time := cs.takeWhile fun c => !isOffsetSign c
  let offset := cs.drop time.length
  let c ← Clock.read time
  let shift ← readOffset offset
  if (c.leftover && offset.isEmpty) || 23 < c.hour || 59 < c.minute || 59 < c.second then none
  else some ((c.seconds * 1000000 + c.micro : Nat) - shift)

/-- Each character as often as it has bytes in UTF-8. What may stand after a time of day is measured
in bytes. -/
def perByte (cs : List Char) : List Char := cs.flatMap fun c => List.replicate c.utf8Size c

/-- `Z` spelled out. -/
def spellZulu (cs : List Char) : List Char :=
  cs.flatMap fun c => if c = 'Z' then "+00:00".toList else [c]

namespace Instant

/-- The microseconds from the beginning of 1970 to the instant that a text stands for. -/
def read? (s : String) : Option Int := do
  let cs := spellZulu s.toList
  if cs.length < 7 then none
  else
    let length := dateLength cs
    let day ← readDate length cs
    let midnight : Int := ((day : Int) - epochDay) * 86400000000
    match cs.drop length with
    | [] => some midnight
    | _ :: time => (readTime (perByte time)).map (midnight + ·)

/-- Microseconds as milliseconds, the fraction cut off. The seconds are rounded to a double
first. -/
def millis (micros : Int) : Int :=
  let seconds := Binary64.ofRatio micros.natAbs 1000000
  Binary64.truncate ((if micros < 0 then -seconds else seconds) * 1000.0)

end Instant

end StrategyGraph.Calendar
