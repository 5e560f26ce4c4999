import StrategyGraph.Walk.Branch
import StrategyGraph.Walk.Outcome

/-!
# Walks

A walk through a sub-graph at a bar starts at an entry node and looks for an action, depth first. It
ends at the first action; at a condition it goes on along the first edge on the branch for the
outcome, and at any other node along every edge in turn. No node is entered twice.

* `SubGraph.find` says what a walk finds at a node;
* `depthFirst` walks on from a stack of nodes;
* `SubGraph.walk` walks from one node, and `SubGraph.nextAction` from each entry node in turn until
  an action is found.
-/

namespace StrategyGraph

/-- A purchase or sale that a node asks for. -/
structure Action where
  /-- Purchase or sale. -/
  direction : Direction
  /-- The id of the node. -/
  nodeId : String

/-- What a walk finds at a node. -/
inductive Finding where
  /-- An action, which ends the walk. -/
  | action (a : Action)
  /-- Nodes to go on to, in order. -/
  | onward (targets : List String)

/-- The nodes that a walk entered, in order, and how it ended: with an action, without one, or with
a fault at the last node. -/
structure Trail where
  /-- The ids of the nodes. -/
  entered : List String
  /-- How the walk ended. -/
  outcome : Except Fault (Option Action)

namespace Trail

/-- A walk that ends before it enters a node. -/
def empty : Trail := ⟨[], .ok none⟩

/-- The trail with a node before it. -/
def cons (id : String) (t : Trail) : Trail := ⟨id :: t.entered, t.outcome⟩

/-- The trail, and if it ended without an action and without a fault, another one. -/
def orElse (t : Trail) (other : Unit → Trail) : Trail :=
  match t.outcome with
  | .ok none =>
    let next := other ()
    ⟨t.entered ++ next.entered, next.outcome⟩
  | _ => t

end Trail

/-- Walks on from a stack of nodes and enters at most `count` of them. `fresh` are the nodes that
may still be entered. -/
def depthFirst (find : String → Except Fault Finding) (count : Nat) (fresh stack : List String) :
    Trail :=
  match count, stack.dropWhile fun id => !fresh.contains id with
  | 0, _ | _, [] => .empty
  | n + 1, id :: rest =>
    match find id with
    | .error fault => ⟨[id], .error fault⟩
    | .ok (.action a) => ⟨[id], .ok (some a)⟩
    | .ok (.onward targets) =>
      (depthFirst find n (fresh.filter (· ≠ id)) (targets ++ rest)).cons id

namespace SubGraph

variable (s : SubGraph) (conditions : String → Option Condition) (ctx : BarContext)

/-- The node with an id. -/
def node? (id : String) : Option Node := s.nodes.find? fun n => n.id = id

/-- The outcome of the condition of a node; one that has none does not hold. -/
def outcome (id : String) : Except Fault Bool :=
  match conditions id with
  | some c => c.outcome ctx
  | none => .ok false

/-- What a walk finds at a node. -/
def find (id : String) : Except Fault Finding :=
  match s.node? id with
  | none => .ok (.onward [])
  | some n =>
    match n.kind.role with
    | .action =>
      match n.action? with
      | some direction => .ok (.action ⟨direction, id⟩)
      | none => .ok (.onward [])
    | .condition => do
      let outcome ← outcome conditions ctx id
      let taken := (s.outgoing id).find? fun e => e.takesBranch outcome
      pure (.onward (taken.map Edge.target).toList)
    | _ => .ok (.onward ((s.outgoing id).map Edge.target))

/-- Walks from a node. -/
def walk (start : String) : Trail :=
  depthFirst (s.find conditions ctx) s.nodes.length (s.nodes.map Node.id) [start]

/-- Walks from each of the nodes in turn until an action is found. -/
def walkFrom : List String → Trail
  | [] => .empty
  | start :: starts => (s.walk conditions ctx start).orElse fun _ => walkFrom starts

/-- The action that a sub-graph asks for at a bar. -/
def nextAction : Trail := s.walkFrom conditions ctx s.entryIds

end SubGraph

/-- What the conditions that a walk came to leave in the log. -/
def Trail.log (t : Trail) (conditions : String → Option Condition) (ctx : BarContext) :
    List Log.Record :=
  t.entered.filterMap fun id => (conditions id).bind fun c => c.outcomeRecord? ctx

end StrategyGraph
