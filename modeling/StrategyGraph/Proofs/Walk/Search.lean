import StrategyGraph.Proofs.Walk.Reach

/-!
# Walks as recursive searches

A walk keeps a stack of the ids that it is still to go to. It goes the way of a recursive search,
which calls itself for the ids that a node leads to, one after the other, and shares with its calls
nothing but the ids that were seen.

* `SubGraph.Searches` : the recursive search, which comes to one end only (`Searches.unique`);
* `SubGraph.Searches.of_append` : a search for some ids and then others, taken apart; this is what
  lets a stack stand for the calls that are still to come;
* `SubGraph.depthFirst_searches` : a bounded walk is a search for the ids on its stack;
* `SubGraph.walk_searches` : **a walk enters the same nodes as the recursive search in the same
  order, and finds the same action.**
-/

namespace StrategyGraph

theorem Trail.orElse_of_none {t : Trail} (h : t.outcome = .ok none) (other : Unit → Trail) :
    t.orElse other = ⟨t.entered ++ (other ()).entered, (other ()).outcome⟩ := by
  simp only [Trail.orElse, h]

namespace SubGraph

/-- A recursive search for ids in turn: which ids were seen before it and after it, and its trail.
An id that was seen is left out, and so is one of no node. Any other node is entered: the search
ends with its action if it has one, and else goes on recursively, in turn, for all that its enabled
edges lead to. -/
inductive Searches (s : SubGraph) (conditions : String → Option Condition) (ctx : BarContext) :
    List String → List String → List String → Trail → Prop
  /-- No id is left. -/
  | done {seen : List String} : Searches s conditions ctx seen [] seen .empty
  /-- The first id was seen. -/
  | again {seen ids after : List String} {id : String} {t : Trail} (hid : id ∈ seen)
      (h : Searches s conditions ctx seen ids after t) :
      Searches s conditions ctx seen (id :: ids) after t
  /-- No node has the first id. -/
  | unknown {seen ids after : List String} {id : String} {t : Trail} (hid : id ∉ seen)
      (hnode : s.node? id = none) (h : Searches s conditions ctx (id :: seen) ids after t) :
      Searches s conditions ctx seen (id :: ids) after t
  /-- The first node has an action. -/
  | action {seen ids : List String} {id : String} {n : Node} {direction : Direction}
      (hid : id ∉ seen) (hnode : s.node? id = some n) (haction : n.action? = some direction) :
      Searches s conditions ctx seen (id :: ids) (id :: seen) ⟨[id], .ok (some ⟨direction, id⟩)⟩
  /-- The search that the first node calls finds an action. -/
  | within {seen ids after : List String} {id : String} {n : Node} {t : Trail} {a : Action}
      (hid : id ∉ seen) (hnode : s.node? id = some n) (haction : n.action? = none)
      (h : Searches s conditions ctx (id :: seen) ((s.enabled conditions ctx n).map Edge.target)
        after t) (hfound : t.outcome = .ok (some a)) :
      Searches s conditions ctx seen (id :: ids) after (t.cons id)
  /-- The search that the first node calls finds nothing, and the next id comes. -/
  | beyond {seen ids mid after : List String} {id : String} {n : Node} {t t' : Trail}
      (hid : id ∉ seen) (hnode : s.node? id = some n) (haction : n.action? = none)
      (h : Searches s conditions ctx (id :: seen) ((s.enabled conditions ctx n).map Edge.target)
        mid t) (hnone : t.outcome = .ok none) (hrest : Searches s conditions ctx mid ids after t') :
      Searches s conditions ctx seen (id :: ids) after ((t.orElse fun _ => t').cons id)

variable {s : SubGraph} {conditions : String → Option Condition} {ctx : BarContext}
  {seen ids rest after after' : List String} {t t' : Trail}

theorem Searches.unique (h : s.Searches conditions ctx seen ids after t)
    (h' : s.Searches conditions ctx seen ids after' t') : after = after' ∧ t = t' := by
  induction h generalizing after' t' with
  | done =>
    cases h'
    exact ⟨rfl, rfl⟩
  | again hid _ ih =>
    cases h' with
    | again _ h' => exact ih h'
    | unknown hnew | action hnew | within hnew | beyond hnew => exact absurd hid hnew
  | unknown hid hnode _ ih =>
    cases h' with
    | again hold => exact absurd hold hid
    | unknown _ _ h' => exact ih h'
    | action _ hnode' | within _ hnode' | beyond _ hnode' => cases hnode.symm.trans hnode'
  | action hid hnode haction =>
    cases h' with
    | again hold => exact absurd hold hid
    | unknown _ hnode' => cases hnode.symm.trans hnode'
    | action _ hnode' haction' =>
      cases hnode.symm.trans hnode'
      cases haction.symm.trans haction'
      exact ⟨rfl, rfl⟩
    | within _ hnode' haction' | beyond _ hnode' haction' =>
      cases hnode.symm.trans hnode'
      cases haction.symm.trans haction'
  | within hid hnode haction _ hfound ih =>
    cases h' with
    | again hold => exact absurd hold hid
    | unknown _ hnode' => cases hnode.symm.trans hnode'
    | action _ hnode' haction' =>
      cases hnode.symm.trans hnode'
      cases haction.symm.trans haction'
    | within _ hnode' _ h' =>
      cases hnode.symm.trans hnode'
      obtain ⟨rfl, rfl⟩ := ih h'
      exact ⟨rfl, rfl⟩
    | beyond _ hnode' _ h' hnone =>
      cases hnode.symm.trans hnode'
      obtain ⟨-, rfl⟩ := ih h'
      cases hfound.symm.trans hnone
  | beyond hid hnode haction _ hnone _ ih ihrest =>
    cases h' with
    | again hold => exact absurd hold hid
    | unknown _ hnode' => cases hnode.symm.trans hnode'
    | action _ hnode' haction' =>
      cases hnode.symm.trans hnode'
      cases haction.symm.trans haction'
    | within _ hnode' _ h' hfound =>
      cases hnode.symm.trans hnode'
      obtain ⟨-, rfl⟩ := ih h'
      cases hnone.symm.trans hfound
    | beyond _ hnode' _ h' _ hrest' =>
      cases hnode.symm.trans hnode'
      obtain ⟨rfl, rfl⟩ := ih h'
      obtain ⟨rfl, rfl⟩ := ihrest hrest'
      exact ⟨rfl, rfl⟩

theorem Searches.outcome_ok (h : s.Searches conditions ctx seen ids after t) :
    ∃ found, t.outcome = .ok found := by
  induction h with
  | done => exact ⟨none, rfl⟩
  | again _ _ ih | unknown _ _ _ ih => exact ih
  | action => exact ⟨_, rfl⟩
  | within _ _ _ _ hfound => exact ⟨_, hfound⟩
  | beyond _ _ _ _ hnone _ _ ihrest =>
    obtain ⟨found, hfound⟩ := ihrest
    exact ⟨found, by simpa [Trail.cons, Trail.orElse_of_none hnone] using hfound⟩

/-- A search for some ids and then others ends among the first ones, or it is a search for these
that finds nothing, and then one for the others. -/
theorem Searches.of_append (h : s.Searches conditions ctx seen (ids ++ rest) after t) :
    (∃ a, t.outcome = .ok (some a) ∧ s.Searches conditions ctx seen ids after t) ∨
      ∃ mid t₁ t₂, s.Searches conditions ctx seen ids mid t₁ ∧ t₁.outcome = .ok none ∧
        s.Searches conditions ctx mid rest after t₂ ∧ t = t₁.orElse fun _ => t₂ := by
  induction ids generalizing seen t with
  | nil => exact .inr ⟨seen, .empty, t, .done, rfl, h, rfl⟩
  | cons id ids ih =>
    cases h with
    | again hid h =>
      rcases ih h with ⟨a, hfound, h⟩ | ⟨mid, t₁, t₂, h, hnone, hrest, heq⟩
      · exact .inl ⟨a, hfound, .again hid h⟩
      · exact .inr ⟨mid, t₁, t₂, .again hid h, hnone, hrest, heq⟩
    | unknown hid hnode h =>
      rcases ih h with ⟨a, hfound, h⟩ | ⟨mid, t₁, t₂, h, hnone, hrest, heq⟩
      · exact .inl ⟨a, hfound, .unknown hid hnode h⟩
      · exact .inr ⟨mid, t₁, t₂, .unknown hid hnode h, hnone, hrest, heq⟩
    | action hid hnode haction => exact .inl ⟨_, rfl, .action hid hnode haction⟩
    | within hid hnode haction h hfound =>
      exact .inl ⟨_, hfound, .within hid hnode haction h hfound⟩
    | @beyond _ _ _ _ _ _ t₀ t' hid hnode haction h₀ hnone₀ h =>
      rcases ih h with ⟨a, hfound, h⟩ | ⟨mid, t₁, t₂, h₁, hnone, hrest, rfl⟩
      · refine .inl ⟨a, ?_, .beyond hid hnode haction h₀ hnone₀ h⟩
        simpa [Trail.cons, Trail.orElse_of_none hnone₀] using hfound
      · refine .inr ⟨mid, (t₀.orElse fun _ => t₁).cons id, t₂,
          .beyond hid hnode haction h₀ hnone₀ h₁, ?_, hrest, ?_⟩
        · simpa [Trail.cons, Trail.orElse_of_none hnone₀] using hnone
        · simp [Trail.orElse, Trail.cons, hnone₀, hnone]

/-- **A bounded walk is a search for the ids on its stack**, once it may enter every node. -/
theorem depthFirst_searches (h : s.Walkable conditions ctx) {count : Nat}
    {visited fresh stack : List String} (hfresh : Unvisited (s.nodes.map Node.id) visited fresh)
    (hcount : fresh.length ≤ count) : ∃ after, s.Searches conditions ctx visited stack after
      (depthFirst (s.find conditions ctx) count fresh stack) := by
  refine depthFirst_induction
    (P := fun visited stack t => ∃ after, s.Searches conditions ctx visited stack after t)
    ?_ ?_ ?_ ?_ ?_ ?_ hfresh hcount
  · intro visited
    exact ⟨visited, .done⟩
  · rintro visited stack id t hid ⟨after, hsearch⟩
    exact ⟨after, .again hid hsearch⟩
  · rintro visited stack id t hid hunknown ⟨after, hsearch⟩
    exact ⟨after, .unknown hid (find?_key_eq_none.2 hunknown) hsearch⟩
  · intro visited stack id fault _ hfind
    obtain ⟨finding, hfinding⟩ : ∃ finding, s.find conditions ctx id = .ok finding := h.find_ok
    cases hfind.symm.trans hfinding
  · intro visited stack id a hid hfind
    obtain ⟨n, hn, rfl, haction, hnodeId⟩ := h.find_eq_action.1 hfind
    have hnode : s.node? n.id = some n := (find?_key_iff h.nodup).2 ⟨hn, rfl⟩
    obtain ⟨direction, nodeId⟩ := a
    cases hnodeId
    exact ⟨_, .action hid hnode haction⟩
  · rintro visited stack targets id t hid hknown hfind ⟨after, hsearch⟩
    obtain ⟨n, hn, rfl⟩ := List.mem_map.1 hknown
    have hnode : s.node? n.id = some n := (find?_key_iff h.nodup).2 ⟨hn, rfl⟩
    rw [h.find_id hn] at hfind
    cases haction : n.action? with
    | some direction =>
      rw [haction] at hfind
      cases hfind
    | none =>
      rw [haction] at hfind
      cases hfind
      -- The upper part of the stack is the call for the node, the lower part the calls after it.
      rcases hsearch.of_append with ⟨a, hfound, hwithin⟩ | ⟨mid, t₁, t₂, hwithin, hnone, hrest, rfl⟩
      · exact ⟨after, .within hid hnode haction hwithin hfound⟩
      · exact ⟨after, .beyond hid hnode haction hwithin hnone hrest⟩

/-- **A walk is the recursive search.** If nodes have distinct ids and no condition raises a fault,
the recursive search from an id comes to one end, and its trail is that of the walk: the same nodes
are entered in the same order, and the same action is found. -/
theorem walk_searches (h : s.Walkable conditions ctx) (start : String) :
    (∃ found, (s.walk conditions ctx start).outcome = .ok found) ∧
    ∃ seen, ∀ seen' trail, s.Searches conditions ctx [] [start] seen' trail ↔
      seen' = seen ∧ trail = s.walk conditions ctx start := by
  have hfresh : Unvisited (s.nodes.map Node.id) [] (s.nodes.map Node.id) := fun id => by simp
  obtain ⟨seen, hsearch⟩ : ∃ seen, s.Searches conditions ctx [] [start] seen
      (s.walk conditions ctx start) := depthFirst_searches h hfresh (by simp)
  refine ⟨hsearch.outcome_ok, seen, fun seen' trail => ⟨fun h' => h'.unique hsearch, ?_⟩⟩
  rintro ⟨rfl, rfl⟩
  exact hsearch

theorem walk_searches_ring :
    ring.Walkable (fun _ => some ringCondition) ⟨0, .int 1, none, []⟩ ∧
    ∃ seen, ring.Searches (fun _ => some ringCondition) ⟨0, .int 1, none, []⟩ [] ["guard"] seen
      ⟨["guard", "hold", "leave"], .ok (some ⟨.sell, "leave"⟩)⟩ := by
  have hwalkable : ring.Walkable (fun _ => some ringCondition) ⟨0, .int 1, none, []⟩ :=
    ⟨by decide, fun _ _ _ => ⟨true, rfl⟩⟩
  obtain ⟨-, seen, hsearch⟩ := walk_searches hwalkable "guard"
  exact ⟨hwalkable, seen, (hsearch _ _).2 ⟨rfl, rfl⟩⟩

end SubGraph

end StrategyGraph
