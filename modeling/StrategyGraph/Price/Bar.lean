import StrategyGraph.Calendar.Instant
import StrategyGraph.Json.Reading

/-!
# Price bars

A bar has a closing price, a time in milliseconds since 1970 if it is known, and the highest and
lowest price if they are known.

* `readTime` reads a time: a number of seconds or milliseconds, or an ISO 8601 text;
* `Bar.read` reads a bar from a pair, a number or an object, and finds none where no finite price
  is given;
* `Bar.readAll` reads a list of bars and leaves unusable entries out;
* `Bar.inOrder` sorts bars by time when all times are known, and keeps their order otherwise.
-/

namespace StrategyGraph

/-- A closing price with its time and range. -/
structure Bar where
  /-- Milliseconds since 1970. -/
  time : Option Int
  /-- The closing price. -/
  price : Float
  /-- The highest price. -/
  high : Option Float := none
  /-- The lowest price. -/
  low : Option Float := none

namespace Bar

/-- The fields that may hold the price, the first usable one first. -/
def priceKeys : List String := ["live_price", "close", "price", "c"]

/-- The fields that may hold the time, the first given one first. -/
def timeKeys : List String := ["time", "timestamp", "t"]

/-- Numbers of seconds are below this, numbers of milliseconds are not. -/
def millisFrom : Float := 1000000000000.0

/-- A finite number of seconds or milliseconds as milliseconds. -/
def promote (x : Float) : Int :=
  Binary64.truncate (if 0.0 < x && x < millisFrom then x * 1000.0 else x)

/-- Reads a time in milliseconds. -/
def readTime (j : Json) : Except Fault (Option Int) :=
  match j with
  | .string s =>
    let s := Text.strip s
    match (Decimal.readFloat s).filter Float.isFinite with
    | some x => .ok (some (promote x))
    | none => .ok ((Calendar.Instant.read? s).map Calendar.Instant.millis)
  | j => j.finite?.map fun x => x.map promote

/-- The first of the fields that stands for a finite number. -/
def firstFinite (fields : Fields) : List String → Except Fault (Option Float)
  | [] => .ok none
  | key :: keys => do
    match ← (fields.get key).finite? with
    | some x => pure (some x)
    | none => firstFinite fields keys

/-- The first of the fields that is not `null`. -/
def firstGiven (fields : Fields) (keys : List String) : Json :=
  ((keys.map fields.get).find? fun j => !j.isNull).getD .null

/-- Reads a bar. -/
def read (j : Json) : Except Fault (Option Bar) :=
  match j with
  | .array (time :: price :: _) => do
    match ← price.finite? with
    | none => pure none
    | some price => pure (some { time := ← readTime time, price })
  | .number n => do pure ((← n.finite?).map fun price => { time := none, price })
  | .object fields => do
    match ← firstFinite fields priceKeys with
    | none => pure none
    | some price =>
      let time ← readTime (firstGiven fields timeKeys)
      let high ← ((Fields.get? fields "high").getD (Fields.get fields "h")).finite?
      let low ← ((Fields.get? fields "low").getD (Fields.get fields "l")).finite?
      pure (some { time, price, high, low })
  | _ => .ok none

/-- Reads the entries of a list and leaves out those that are no bars. -/
def readAll (j : Json) : Except Fault (List Bar) := do
  let bars ← (← j.itemsIfAny).mapM read
  pure (bars.filterMap id)

/-- The times are known and do not descend. -/
def notAfter (a b : Bar) : Bool :=
  match a.time, b.time with
  | some s, some t => s ≤ t
  | _, _ => true

/-- The bars by time, those of equal time in the order they had; in the order they had when a time
is missing. -/
def inOrder (bars : List Bar) : List Bar :=
  if bars.all fun b => b.time.isSome then bars.mergeSort notAfter else bars

/-- Reads a list of bars and puts it in order. -/
def normalize (j : Json) : Except Fault (List Bar) := (readAll j).map inOrder

/-- The bar as a JSON object; unknown highs and lows are left out. -/
def toJson (b : Bar) : Json :=
  .object <|
    [("time", Json.ofOption .ofInt b.time), ("price", .ofFloat b.price)]
      ++ (b.high.map fun x => ("high", Json.ofFloat x)).toList
      ++ (b.low.map fun x => ("low", Json.ofFloat x)).toList

end Bar

end StrategyGraph
