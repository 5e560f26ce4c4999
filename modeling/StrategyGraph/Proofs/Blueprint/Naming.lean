import StrategyGraph.Blueprint.Producer
import StrategyGraph.Proofs.Graph.Nearest
import StrategyGraph.Proofs.Graph.Queue

/-!
# Names that come from nearest nodes

A series that its node gives no name is named by a nearest node behind it that names parameters.

* `Producer.IsUnnamed` : nodes that give their series no name;
* `Producer.outputKey?_of_isUnnamed` : the name of such a series;
* `Graph.nearest_first` : **searches list the nearest nodes first, and series are named
  accordingly.**
-/

namespace StrategyGraph

namespace Producer

/-- The node names its series neither in its data nor in its slot `output`. -/
structure IsUnnamed (n : Node) : Prop where
  /-- The data of the node hold no name, -/
  data : (n.data.get "outputParamName").isTruthy = false
  /-- and neither does the slot. -/
  slot : slotKey? n = .ok none

/-- The name that a node has for series before it. -/
def givenName (setter : Node) : Json :=
  (setter.data.get "parameterName").orElse (setter.data.get "outputParamName")

/-- The name of a series that a node behind it may give a name to, and else the default one, with a
warning. -/
def nameBy (n : Node) (default : String) : Option Node → String × List Warning
  | some setter =>
    if (givenName setter).isTruthy then ((givenName setter).text, [])
    else (default, [.unnamedOutput n.id default])
  | none => (default, [.unnamedOutput n.id default])

theorem outputKey?_of_isUnnamed {n : Node} (h : IsUnnamed n) (g : Graph) (default : String) :
    outputKey? g n default = .ok (nameBy n default (g.nearestOfKind? n.id .setParameter)) := by
  have hdata : ¬(n.data.get "outputParamName").isTruthy = true := by simp [h.data]
  rw [outputKey?]
  simp only [if_neg hdata, h.slot, setterKey?]
  cases g.nearestOfKind? n.id .setParameter with
  | none => rfl
  | some setter =>
    by_cases hname : (givenName setter).isTruthy = true
    · rw [nameBy, if_pos hname]
      rw [givenName] at hname ⊢
      simp [hname, pure, Except.pure, bind, Except.bind]
    · rw [nameBy, if_neg hname]
      rw [givenName] at hname
      simp [hname, pure, Except.pure, bind, Except.bind]

end Producer

open Producer (IsUnnamed nameBy outputKey?)

/-- **Searches list the nearest nodes first.** The ancestors of given ids are the nodes from which a
path leads to one of them, each listed once, in the order of the lengths of their shortest paths; this
is also the order in which they are first taken off a queue, whether or not nodes that were seen before
are put on it. A node of a kind is found behind a given node unless no path leads to another node of the
kind, and no other one is nearer than the one that is found. So the nearest node behind it that names
parameters gives a name to a series that has none, unless its own name is empty. -/
theorem Graph.nearest_first {g : Graph} (h : g.Proper) :
    (∀ starts, (g.ancestors starts).Nodup ∧
      (∀ a, a ∈ g.ancestors starts ↔
        a ∈ g.ids ∧ ∃ s ∈ starts, Relation.ReflTransGen g.Leads a s) ∧
      (g.ancestors starts).Pairwise (g.NoFartherFrom starts) ∧
      ∀ onlyUnseen, Search.drain g.sources onlyUnseen g.ids starts = g.ancestors starts) ∧
    (∀ id kind, (g.nearestOfKind? id kind = none ↔ ¬g.ReachesOther id kind) ∧
      (∀ m, g.nearestOfKind? id kind = some m → g.IsNearest id kind m) ∧
      ∀ onlyUnseen, Search.drain g.targets onlyUnseen g.ids [id] = g.reachable id) ∧
    ∀ n default, IsUnnamed n →
      (¬g.ReachesOther n.id .setParameter →
        outputKey? g n default = .ok (nameBy n default none)) ∧
      (g.ReachesOther n.id .setParameter → ∃ setter, g.IsNearest n.id .setParameter setter ∧
        outputKey? g n default = .ok (nameBy n default (some setter))) := by
  refine ⟨fun starts => ?_, fun id kind => ?_, fun n default hn => ⟨fun hnone => ?_, fun hsome => ?_⟩⟩
  · exact ⟨Search.nodup_search, fun a => mem_ancestors_iff_leads h, pairwise_ancestors h starts,
      fun _ => Search.drain_eq_search⟩
  · exact ⟨nearestOfKind?_eq_none_iff h, fun m => isNearest_of_nearestOfKind? h,
      fun _ => Search.drain_eq_search⟩
  · rw [Producer.outputKey?_of_isUnnamed hn, (nearestOfKind?_eq_none_iff h).2 hnone]
  · cases hfound : g.nearestOfKind? n.id .setParameter with
    | none => exact absurd hsome ((nearestOfKind?_eq_none_iff h).1 hfound)
    | some setter =>
      refine ⟨setter, isNearest_of_nearestOfKind? h hfound, ?_⟩
      rw [Producer.outputKey?_of_isUnnamed hn, hfound]

/-- Prices without a name. -/
def feed : Node := { id := "feed", kind := .inputPrice }

/-- A node that names parameters. -/
def near : Node :=
  { id := "near", kind := .setParameter, data := [("parameterName", .string "level")] }

/-- Prices with two names behind them: a far one that comes first in the list, and a near one, from
which an edge leads back to the prices. -/
def forked : Graph where
  nodes :=
    [{ id := "far", kind := .setParameter, data := [("parameterName", .string "distant")] }, feed,
     { id := "smooth", kind := .indicator }, near, { id := "enter", kind := .buy }]
  edges :=
    [{ id := "a", source := "feed", target := "smooth" },
     { id := "b", source := "smooth", target := "far" },
     { id := "c", source := "far", target := "enter" },
     { id := "d", source := "feed", target := "near" },
     { id := "e", source := "near", target := "feed" },
     { id := "f", source := "near", target := "enter" }]

theorem nearest_first_forked : forked.Proper ∧ IsUnnamed feed ∧
    forked.ancestors ["enter"] = ["enter", "far", "near", "smooth", "feed"] ∧
    (forked.ancestors ["enter"]).Pairwise (forked.NoFartherFrom ["enter"]) ∧
    forked.ReachesOther "feed" .setParameter ∧ forked.IsNearest "feed" .setParameter near ∧
    nameBy feed "live_price" (some near) = ("level", []) ∧
    ∃ setter, forked.IsNearest "feed" .setParameter setter ∧
      outputKey? forked feed "live_price" = .ok (nameBy feed "live_price" (some setter)) := by
  have hproper : forked.Proper := ⟨by decide, by decide, by decide⟩
  have hunnamed : IsUnnamed feed := ⟨rfl, rfl⟩
  obtain ⟨hancestors, hfound, hnamed⟩ := Graph.nearest_first hproper
  obtain ⟨-, -, hsorted, -⟩ := hancestors ["enter"]
  obtain ⟨hnone, hnearest, -⟩ := hfound "feed" .setParameter
  have hnear : forked.nearestOfKind? "feed" .setParameter = some near := rfl
  have hreaches : forked.ReachesOther "feed" .setParameter := by
    by_contra hnot
    rw [hnone.2 hnot] at hnear
    cases hnear
  exact ⟨hproper, hunnamed, by decide, hsorted, hreaches, hnearest near hnear, rfl,
    (hnamed feed "live_price" hunnamed).2 hreaches⟩

end StrategyGraph
