import StrategyGraph.Proofs.Walk.Operand
import StrategyGraph.Proofs.Walk.Reach

/-!
# Walks that come to an end without a fault

A walk fails only at a condition, a condition only at an operand, and an operand only through its
label or its value, never through the bar at which it is read.

* `Condition.Sound` : the conditions that have outcomes at a bar (`Condition.succeeds_outcome`);
* `SubGraph.Meets` : a walk comes to a condition;
* `SubGraph.succeeds_nextAction` : **a walk ends without a fault if and only if all conditions that
  it comes to have outcomes.**
-/

namespace StrategyGraph

/-! ### Conditions -/

namespace Condition

/-- Both operands have values, or stand for none, where series have these names. -/
def Sound (names : List String) (c : Condition) : Prop :=
  ∀ operand ∈ [c.left, c.right], ∀ b, operand = some b → b.bound = true → b.Sound names

/-- **Which conditions have an outcome at a bar.** -/
theorem succeeds_outcome {c : Condition} {ctx : BarContext} (hctx : ctx.Complete) :
    Succeeds (c.outcome ctx) ↔ c.Sound ctx.names := by
  rw [outcome, succeeds_map, operands, Sound, List.forall_mem_cons, List.forall_mem_singleton]
  refine succeeds_bind_and (Operand.succeeds_resolve hctx) fun _ _ => ?_
  exact (succeeds_bind_iff fun _ => succeeds_ok _).trans (Operand.succeeds_resolve hctx)

end Condition

/-! ### Walks -/

/-- The trail ends without a fault if and only if nothing is a fault at the nodes that it enters. -/
def Trail.EndsAs (find : String → Except Fault Finding) (t : Trail) : Prop :=
  Succeeds t.outcome ↔ ∀ id ∈ t.entered, Succeeds (find id)

section Loop

variable {find : String → Except Fault Finding} {t : Trail} {id : String}

theorem Trail.EndsAs.empty : Trail.empty.EndsAs find :=
  iff_of_true (succeeds_ok _) fun _ h => absurd h List.not_mem_nil

theorem Trail.EndsAs.cons (h : t.EndsAs find) (hid : Succeeds (find id)) :
    (t.cons id).EndsAs find := by
  rw [EndsAs, Trail.cons, List.forall_mem_cons, and_iff_right hid]
  exact h

theorem Trail.EndsAs.orElse {other : Unit → Trail} (h : t.EndsAs find)
    (hother : (other ()).EndsAs find) : (t.orElse other).EndsAs find := by
  rw [Trail.orElse]
  split
  · next hnone =>
    have hentered := h.1 ⟨_, hnone⟩
    rw [EndsAs, List.forall_mem_append, and_iff_right hentered]
    exact hother
  · exact h

theorem depthFirst_endsAs {count : Nat} {fresh stack : List String} :
    (depthFirst find count fresh stack).EndsAs find := by
  induction count generalizing fresh stack with
  | zero => rw [depthFirst.eq_def]; exact .empty
  | succ n ih =>
    cases hdropped : stack.dropWhile fun id => !fresh.contains id with
    | nil =>
      rw [depthFirst_eq_empty hdropped]
      exact .empty
    | cons id rest =>
      rw [depthFirst_succ hdropped]
      cases hfind : find id with
      | error fault => simp [Trail.EndsAs, hfind]
      | ok finding =>
        cases finding with
        | action a => simp [Trail.EndsAs, hfind]
        | onward targets => exact ih.cons ⟨_, hfind⟩

end Loop

namespace SubGraph

variable {s : SubGraph} {conditions : String → Option Condition} {ctx : BarContext} {id : String}

/-- The condition that a walk comes to at a node. -/
def ConditionAt (s : SubGraph) (conditions : String → Option Condition) (id : String)
    (c : Condition) : Prop :=
  (∃ n, s.node? id = some n ∧ n.kind.role = .condition) ∧ conditions id = some c

/-- The walk at a bar comes to a condition. -/
def Meets (s : SubGraph) (conditions : String → Option Condition) (ctx : BarContext)
    (c : Condition) : Prop :=
  ∃ id ∈ (s.nextAction conditions ctx).entered, s.ConditionAt conditions id c

theorem succeeds_find : Succeeds (s.find conditions ctx id) ↔
    ∀ c, s.ConditionAt conditions id c → Succeeds (c.outcome ctx) := by
  rw [find]
  cases hnode : s.node? id with
  | none => simp [ConditionAt, hnode]
  | some n =>
    dsimp only
    split
    · next hrole =>
      refine iff_of_true (by split <;> exact succeeds_ok _) ?_
      rintro c ⟨⟨n', hn', hcondition⟩, -⟩
      simp_all
    · next hrole =>
      refine (succeeds_bind_iff fun _ => succeeds_ok _).trans ?_
      rw [outcome]
      cases hcondition : conditions id with
      | none => simp [ConditionAt, hcondition]
      | some c => simp [ConditionAt, hcondition, hnode, hrole]
    · next hrole =>
      refine iff_of_true (succeeds_ok _) ?_
      rintro c ⟨⟨n', hn', hcondition⟩, -⟩
      simp_all

/-- **Which walks come to an end without a fault.** -/
theorem succeeds_nextAction : Succeeds (s.nextAction conditions ctx).outcome ↔
    ∀ c, s.Meets conditions ctx c → Succeeds (c.outcome ctx) := by
  have hends : ∀ starts, (s.walkFrom conditions ctx starts).EndsAs (s.find conditions ctx) := by
    intro starts
    induction starts with
    | nil => exact .empty
    | cons start starts ih => exact depthFirst_endsAs.orElse ih
  have hwalk : Succeeds (s.nextAction conditions ctx).outcome ↔ _ := hends s.entryIds
  simp only [hwalk, succeeds_find]
  constructor
  · rintro h c ⟨id, hid, hc⟩
    exact h id hid c hc
  · intro h id hid c hc
    exact h c ⟨id, hid, hc⟩

end SubGraph

end StrategyGraph
