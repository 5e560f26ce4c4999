import StrategyGraph.Decimal.Binary64

/-!
# Fixed places

`fixed places x` writes a double with a given number of digits after the point, and
`roundPlaces places x` is the double nearest to that decimal. The exact binary value is rounded; a
value half way between two decimals goes to the one whose last digit is even.
-/

namespace StrategyGraph.Decimal

open Binary64 (parts)

/-- The magnitude of a finite double in units of `10 ^ -places`, rounded. -/
def scaled (places : Nat) (x : Float) : Nat :=
  let p := parts x
  roundDiv (p.num * tenTo places) p.den

/-- `n` units of `10 ^ -places` in positional notation. -/
def pointAt (places n : Nat) : List Char :=
  let digits := (toString n).toList
  let padded := List.replicate (places + 1 - digits.length) '0' ++ digits
  let whole := padded.length - places
  padded.take whole ++ (if places = 0 then [] else '.' :: padded.drop whole)

/-- `x` with `places` digits after the point. -/
def fixed (places : Nat) (x : Float) : String :=
  if x.isNaN then "nan"
  else
    String.ofList <| (if (parts x).negative then ['-'] else []) ++
      if x.isInf then ['i', 'n', 'f'] else pointAt places (scaled places x)

/-- `x` rounded to `places` digits after the point; an infinite value stays. -/
def roundPlaces (places : Nat) (x : Float) : Float :=
  if x.isNaN || x.isInf then x
  else
    let magnitude := Binary64.ofRatio (scaled places x) (tenTo places)
    if (parts x).negative then -magnitude else magnitude

end StrategyGraph.Decimal
