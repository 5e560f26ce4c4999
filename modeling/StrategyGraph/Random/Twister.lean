import StrategyGraph.Decimal.Binary64

/-!
# A seeded stream of numbers

The Mersenne Twister of 624 words of 32 bits, seeded by the words of an integer.

* `Twister.ofSeed` is the generator of a seed;
* `Twister.next` draws a word;
* `Twister.unit` draws a double in `[0, 1)` with 53 random bits, from two words.
-/

namespace StrategyGraph.Random

/-- The generator: its words and how many of them were drawn. -/
structure Twister where
  /-- The 624 words. -/
  words : Array UInt32
  /-- The place of the word that is drawn next. -/
  index : Nat

namespace Twister

/-- The number of words. -/
def size : Nat := 624

/-- The distance between two words that are mixed. -/
def lag : Nat := 397

/-- The word at a place; zero outside the array. -/
def word (words : Array UInt32) (i : Nat) : UInt32 := words.getD i 0

/-- Words grown from one word. -/
def grow (seed : UInt32) : Array UInt32 :=
  (List.range (size - 1)).foldl
    (fun words i =>
      let last := word words i
      words.push ((last ^^^ (last >>> 30)) * 1812433253 + (i + 1).toUInt32))
    #[seed]

/-- Copies the last word over the first one when a pass over the words is complete. -/
def wrap (words : Array UInt32) (i : Nat) : Array UInt32 × Nat :=
  if size ≤ i then (words.set! 0 (word words (size - 1)), 1) else (words, i)

/-- Mixes a key into the words: one pass over the longer of both, then another over the words. -/
def mixKey (key : Array UInt32) (words : Array UInt32) : Array UInt32 :=
  let rounds := max size key.size
  let (words, i) := (List.range rounds).foldl
    (fun (words, i) k =>
      let last := word words (i - 1)
      let j := k % key.size
      let w := (word words i ^^^ ((last ^^^ (last >>> 30)) * 1664525)) + word key j + j.toUInt32
      wrap (words.set! i w) (i + 1))
    (words, 1)
  let (words, _) := (List.range (size - 1)).foldl
    (fun (words, i) _ =>
      let last := word words (i - 1)
      let w := (word words i ^^^ ((last ^^^ (last >>> 30)) * 1566083941)) - i.toUInt32
      wrap (words.set! i w) (i + 1))
    (words, i)
  words.set! 0 0x80000000

/-- The words of a number, the lowest first; a single zero for zero. -/
def keyOf (n : Nat) : Array UInt32 :=
  let count := max 1 ((n.log2 + 32) / 32)
  ((List.range count).map fun i => (n / twoTo (32 * i) % twoTo 32).toUInt32).toArray

/-- The generator of a seed; the sign of the seed does not matter. -/
def ofSeed (seed : Int) : Twister :=
  ⟨mixKey (keyOf seed.natAbs) (grow 19650218), size⟩

/-- Renews the word at place `i` from its neighbour and the word `lag` places on. -/
def renew (words : Array UInt32) (i : Nat) : Array UInt32 :=
  let y := (word words i &&& 0x80000000) ||| (word words ((i + 1) % size) &&& 0x7fffffff)
  let twist : UInt32 := if y &&& 1 = 0 then 0 else 0x9908b0df
  words.set! i (word words ((i + lag) % size) ^^^ (y >>> 1) ^^^ twist)

/-- Scrambles a word that is drawn. -/
def temper (y : UInt32) : UInt32 :=
  let y := y ^^^ (y >>> 11)
  let y := y ^^^ ((y <<< 7) &&& 0x9d2c5680)
  let y := y ^^^ ((y <<< 15) &&& 0xefc60000)
  y ^^^ (y >>> 18)

/-- Draws a word. All words are renewed when the last one was drawn. -/
def next (t : Twister) : UInt32 × Twister :=
  let t := if t.index < size then t else ⟨(List.range size).foldl renew t.words, 0⟩
  (temper (word t.words t.index), { t with index := t.index + 1 })

/-- Draws a double in `[0, 1)`. -/
def unit (t : Twister) : Float × Twister :=
  let (a, t) := t.next
  let (b, t) := t.next
  let high := (a >>> 5).toNat.toFloat
  let low := (b >>> 6).toNat.toFloat
  ((high * 67108864.0 + low) * (1.0 / 9007199254740992.0), t)

/-- The first `n` doubles of the generator. -/
def units : Nat → Twister → List Float
  | 0, _ => []
  | n + 1, t =>
    let (u, t) := t.unit
    u :: units n t

end Twister

end StrategyGraph.Random
