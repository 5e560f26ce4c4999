import StrategyGraph.Walk.Walker

/-!
# What a walk reads

A walk at a bar reads no value of a series after that bar, so it goes the same way when the series
are cut off there: `SubGraph.nextAction_upTo`. Operands and conditions are where it reads series
(`Operand.resolve_upTo`, `Condition.operands_upTo`).
-/

namespace StrategyGraph

/-- Series that are cut off after their first `k` values. -/
def firstValues {α : Type} (k : Nat) (series : List (String × List α)) : List (String × List α) :=
  series.map fun s => (s.1, s.2.take k)

/-- What is known when the series are cut off after their first `k` values. -/
def BarContext.upTo (k : Nat) (ctx : BarContext) : BarContext :=
  { ctx with series := firstValues k ctx.series }

namespace BarContext

variable (ctx : BarContext) (k : Nat)

@[simp]
theorem price_upTo : (ctx.upTo k).price = ctx.price := rfl

@[simp]
theorem entry_upTo : (ctx.upTo k).entry = ctx.entry := rfl

end BarContext

theorem lookup_firstValues {α : Type} (k : Nat) (series : List (String × List α)) (name : String) :
    (firstValues k series).lookup name = (series.lookup name).map (List.take k) := by
  induction series with
  | nil => rfl
  | cons s series ih =>
    rw [firstValues, List.map_cons, List.lookup_cons, List.lookup_cons]
    cases name == s.1 with
    | true => rfl
    | false => exact ih

theorem BarContext.table_firstValues (k : Nat) (series : List (String × Series Float)) :
    BarContext.table (firstValues k series) = firstValues k (BarContext.table series) := by
  simp [BarContext.table, firstValues, List.map_take]

theorem valueAt_take {α : Type} (items : List α) {index k : Nat} (h : index < k) :
    valueAt (items.take k) (index : Int) = valueAt items index := by
  have hindex : ¬ (index : Int) < 0 := by omega
  simp only [valueAt, hindex, ↓reduceIte, Int.toNat_natCast, List.getElem?_take_of_lt h]

variable {ctx : BarContext} {index k : Nat}

theorem Operand.seriesNamed?_upTo (keys : List Json) :
    seriesNamed? (ctx.upTo k) keys = (seriesNamed? ctx keys).map (Option.map (List.take k)) := by
  have hlookup : ∀ key : Json, (key.string?.bind fun name => (ctx.upTo k).series.lookup name) =
      (key.string?.bind fun name => ctx.series.lookup name).map (List.take k) := by
    intro key
    cases key.string? with
    | none => rfl
    | some name => exact lookup_firstValues k ctx.series name
  induction keys with
  | nil => rfl
  | cons key keys ih =>
    rw [seriesNamed?, seriesNamed?]
    split
    · exact ih
    · cases key.requireKey with
      | error fault => rfl
      | ok _ =>
        simp only [bind, Except.bind, hlookup]
        cases key.string?.bind fun name => ctx.series.lookup name with
        | none => exact ih
        | some series => rfl

theorem Operand.ofValue_upTo (b : Binding) : ofValue (ctx.upTo k) b = ofValue ctx b := by
  have henvironment : environment (ctx.upTo k) = environment ctx := rfl
  have htext : ∀ text, ofText (ctx.upTo k) text = ofText ctx text := by
    intro text
    simp only [ofText, henvironment, BarContext.entry_upTo]
  simp only [ofValue, htext, BarContext.price_upTo]

section

variable (hctx : ctx.index = (index : Int)) (hk : index < k)

include hctx hk

theorem Operand.resolve_upTo (operand : Option Binding) :
    resolve (ctx.upTo k) operand = resolve ctx operand := by
  unfold resolve
  cases operand.filter Binding.bound with
  | none => rfl
  | some b =>
    simp only [seriesNamed?_upTo, ofValue_upTo]
    cases seriesNamed? ctx b.keys with
    | error fault => rfl
    | ok found =>
      cases found with
      | none => rfl
      | some series =>
        -- A series is read at the bar alone, and its value there is not cut off.
        show (valueAt (series.take k) ctx.index >>= _) = (valueAt series ctx.index >>= _)
        rw [hctx, valueAt_take series hk]

theorem Condition.operands_upTo (c : Condition) : c.operands (ctx.upTo k) = c.operands ctx := by
  rw [operands, operands, Operand.resolve_upTo hctx hk, Operand.resolve_upTo hctx hk]

namespace SubGraph

variable (s : SubGraph) (conditions : String → Option Condition)

theorem find_upTo : s.find conditions (ctx.upTo k) = s.find conditions ctx := by
  have houtcome : ∀ id, outcome conditions (ctx.upTo k) id = outcome conditions ctx id := by
    intro id
    simp only [outcome, Condition.outcome, Condition.operands_upTo hctx hk]
  funext id
  simp only [find, houtcome]

/-- **A walk reads nothing that lies after its bar.** -/
theorem nextAction_upTo : s.nextAction conditions (ctx.upTo k) = s.nextAction conditions ctx := by
  have hwalk : ∀ start, s.walk conditions (ctx.upTo k) start = s.walk conditions ctx start := by
    intro start
    rw [walk, walk, find_upTo hctx hk]
  unfold nextAction
  induction s.entryIds with
  | nil => rfl
  | cons start starts ih => simp only [walkFrom, hwalk, ih]

end SubGraph

end

end StrategyGraph
