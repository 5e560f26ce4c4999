import Mathlib.Data.List.TakeWhile
import Mathlib.Logic.Relation
import StrategyGraph.Proofs.Keyed
import StrategyGraph.Walk.Walker

/-!
# What a walk finds

A walk from a node comes to an end, whatever cycles it meets, and it finds an action if and only if
one can be reached along enabled edges.

* `Ends` : the loop of a walk with the ids it visited and its stack, without a bound on its turns;
* `depthFirst_induction` : a walk of at most so many nodes takes the turns of this loop, once it may
  enter every node, and so it ends as the loop does (`depthFirst_ends`);
* `Ends.found` and `Ends.closed` : a loop finds what its stack leads to, and if it finds nothing,
  its stack leads to no action;
* `SubGraph.enabled` : the edges that a node enables at a bar;
* `SubGraph.walk_finds` : **what a walk finds at a bar.**
-/

namespace StrategyGraph

/-! ### The loop -/

section Loop

/-- How the loop of a walk ends: it takes the top of the stack, leaves it out if it was visited, and
else visits it and puts the nodes to go on to on the stack. -/
inductive Ends (find : String → Except Fault Finding) :
    List String → List String → Except Fault (Option Action) → Prop
  /-- The stack is empty. -/
  | empty {visited : List String} : Ends find visited [] (.ok none)
  /-- The top of the stack was visited. -/
  | again {visited stack : List String} {id : String} {result : Except Fault (Option Action)}
      (hid : id ∈ visited) (h : Ends find visited stack result) : Ends find visited (id :: stack) result
  /-- There is a fault at the top of the stack. -/
  | fault {visited stack : List String} {id : String} {e : Fault} (hid : id ∉ visited)
      (hfind : find id = .error e) : Ends find visited (id :: stack) (.error e)
  /-- There is an action at the top of the stack. -/
  | action {visited stack : List String} {id : String} {a : Action} (hid : id ∉ visited)
      (hfind : find id = .ok (.action a)) : Ends find visited (id :: stack) (.ok (some a))
  /-- The walk goes on from the top of the stack. -/
  | onward {visited stack targets : List String} {id : String}
      {result : Except Fault (Option Action)} (hid : id ∉ visited)
      (hfind : find id = .ok (.onward targets))
      (h : Ends find (id :: visited) (targets ++ stack) result) :
      Ends find visited (id :: stack) result

variable {find : String → Except Fault Finding} {count : Nat}
  {visited fresh stack known : List String} {result result' : Except Fault (Option Action)}

theorem Ends.unique (h : Ends find visited stack result) (h' : Ends find visited stack result') :
    result = result' := by
  induction h generalizing result' with
  | empty =>
    cases h'
    rfl
  | again hid _ ih =>
    cases h' with
    | again _ h' => exact ih h'
    | fault hnew | action hnew | onward hnew => exact absurd hid hnew
  | fault hid hfind | action hid hfind =>
    cases h' with
    | again hold => exact absurd hold hid
    | fault _ hfind' | action _ hfind' | onward _ hfind' => simp_all
  | onward hid hfind _ ih =>
    cases h' with
    | again hold => exact absurd hold hid
    | fault _ hfind' | action _ hfind' => simp_all
    | onward _ hfind' h' =>
      cases hfind.symm.trans hfind'
      exact ih h'

/-- The ids that may still be entered are the known ones that were not visited. -/
def Unvisited (known visited fresh : List String) : Prop :=
  ∀ id, id ∈ fresh ↔ id ∈ known ∧ id ∉ visited

theorem Unvisited.visit {id : String} (h : Unvisited known visited fresh) :
    Unvisited known (id :: visited) (fresh.filter (· ≠ id)) := by
  intro other
  rw [List.mem_filter, h other, decide_eq_true_eq, List.mem_cons, not_or, and_assoc,
    and_comm (a := other ∉ visited)]

/-- An unknown id is visited without leading on, so nothing is lost when it is not entered. -/
theorem Unvisited.visit_unknown {id : String} (h : Unvisited known visited fresh)
    (hid : id ∉ known) : Unvisited known (id :: visited) fresh := by
  intro other
  rw [h other, List.mem_cons, not_or]
  constructor
  · rintro ⟨hknown, hnew⟩
    exact ⟨hknown, fun heq => hid (heq ▸ hknown), hnew⟩
  · rintro ⟨hknown, -, hnew⟩
    exact ⟨hknown, hnew⟩

/-- The loop passes over what a bounded walk drops from its stack. -/
theorem Unvisited.of_dropWhile {P : List String → List String → Prop}
    (again : ∀ {visited stack id}, id ∈ visited → P visited stack → P visited (id :: stack))
    (unknown : ∀ {visited stack id}, id ∉ visited → id ∉ known → P (id :: visited) stack →
      P visited (id :: stack))
    (hfresh : Unvisited known visited fresh)
    (h : ∀ visited', Unvisited known visited' fresh →
      P visited' (stack.dropWhile fun id => !fresh.contains id)) : P visited stack := by
  induction stack generalizing visited with
  | nil => exact h visited hfresh
  | cons id stack ih =>
    by_cases hid : id ∈ fresh
    · rw [List.dropWhile_cons_of_neg (by simpa using hid)] at h
      exact h visited hfresh
    · rw [List.dropWhile_cons_of_pos (by simpa using hid)] at h
      by_cases hvisited : id ∈ visited
      · exact again hvisited (ih hfresh h)
      · have hknown : id ∉ known := fun hknown => hid ((hfresh id).2 ⟨hknown, hvisited⟩)
        exact unknown hvisited hknown (ih (hfresh.visit_unknown hknown) h)

theorem depthFirst_eq_empty (h : (stack.dropWhile fun id => !fresh.contains id) = []) :
    depthFirst find count fresh stack = .empty := by
  cases count <;> rw [depthFirst.eq_def, h]

theorem depthFirst_succ {id : String} {rest : List String}
    (h : (stack.dropWhile fun id => !fresh.contains id) = id :: rest) :
    depthFirst find (count + 1) fresh stack =
      match find id with
      | .error fault => ⟨[id], .error fault⟩
      | .ok (.action a) => ⟨[id], .ok (some a)⟩
      | .ok (.onward targets) =>
        (depthFirst find count (fresh.filter (· ≠ id)) (targets ++ rest)).cons id := by
  have heq := depthFirst.eq_def find (count + 1) fresh stack
  rw [h] at heq
  exact heq

/-- **A bounded walk takes the turns of the loop**, once it may enter every node: what each turn
hands on from the rest of the loop to the whole holds of the walk. -/
theorem depthFirst_induction {P : List String → List String → Trail → Prop}
    (empty : ∀ {visited}, P visited [] .empty)
    (again : ∀ {visited stack id t}, id ∈ visited → P visited stack t →
      P visited (id :: stack) t)
    (unknown : ∀ {visited stack id t}, id ∉ visited → id ∉ known → P (id :: visited) stack t →
      P visited (id :: stack) t)
    (fault : ∀ {visited stack id e}, id ∉ visited → find id = .error e →
      P visited (id :: stack) ⟨[id], .error e⟩)
    (action : ∀ {visited stack id a}, id ∉ visited → find id = .ok (.action a) →
      P visited (id :: stack) ⟨[id], .ok (some a)⟩)
    (onward : ∀ {visited stack targets id t}, id ∉ visited → id ∈ known →
      find id = .ok (.onward targets) → P (id :: visited) (targets ++ stack) t →
      P visited (id :: stack) (t.cons id))
    (hfresh : Unvisited known visited fresh) (hcount : fresh.length ≤ count) :
    P visited stack (depthFirst find count fresh stack) := by
  induction count generalizing visited fresh stack with
  | zero =>
    -- When no more nodes may be entered, none is left: the whole stack is passed over.
    obtain rfl : fresh = [] := List.eq_nil_of_length_eq_zero (Nat.le_zero.1 hcount)
    have hdropped : (stack.dropWhile fun id => !([] : List String).contains id) = [] :=
      List.dropWhile_eq_nil_iff.2 fun _ _ => rfl
    refine hfresh.of_dropWhile (P := fun visited stack => P visited stack _) again unknown
      fun visited' _ => ?_
    rw [depthFirst_eq_empty hdropped, hdropped]
    exact empty
  | succ n ih =>
    refine hfresh.of_dropWhile (P := fun visited stack => P visited stack _) again unknown
      fun visited' hfresh' => ?_
    cases hdropped : stack.dropWhile fun id => !fresh.contains id with
    | nil =>
      rw [depthFirst_eq_empty hdropped]
      exact empty
    | cons id rest =>
      -- Entering a fresh node makes the fresh ones fewer, as it does the nodes that may be entered.
      have hid : id ∈ fresh := by
        have hhead := List.head?_dropWhile_not (fun id => !fresh.contains id) stack
        rw [hdropped] at hhead
        simpa using hhead
      obtain ⟨hknown, hnew⟩ := (hfresh' id).1 hid
      have hlength : (fresh.filter (· ≠ id)).length < fresh.length :=
        List.length_filter_lt_length_iff_exists.2 ⟨id, hid, by simp⟩
      rw [depthFirst_succ hdropped]
      cases hfind : find id with
      | error e => exact fault hnew hfind
      | ok finding =>
        cases finding with
        | action a => exact action hnew hfind
        | onward targets => exact onward hnew hknown hfind (ih hfresh'.visit (by omega))

/-- **A bounded walk ends as the loop does**, so the loop comes to an end. -/
theorem depthFirst_ends (hunknown : ∀ id, id ∉ known → find id = .ok (.onward []))
    (hfresh : Unvisited known visited fresh) (hcount : fresh.length ≤ count) :
    Ends find visited stack (depthFirst find count fresh stack).outcome :=
  depthFirst_induction (P := fun visited stack t => Ends find visited stack t.outcome) .empty
    .again (fun hnew hid h => .onward hnew (hunknown _ hid) h) .fault .action
    (fun hnew _ hfind h => .onward hnew hfind h) hfresh hcount

/-! ### Found and closed -/

/-- A walk goes on from the one id to the other. -/
def GoesOn (find : String → Except Fault Finding) (a b : String) : Prop :=
  ∃ targets, find a = .ok (.onward targets) ∧ b ∈ targets

theorem Ends.found {a : Action} (h : Ends find visited stack (.ok (some a))) :
    ∃ start ∈ stack, ∃ id, Relation.ReflTransGen (GoesOn find) start id ∧
      find id = .ok (.action a) := by
  generalize hresult : (.ok (some a) : Except Fault (Option Action)) = result at h
  induction h with
  | empty | fault => cases hresult
  | again _ _ ih =>
    obtain ⟨start, hstart, hpath⟩ := ih hresult
    exact ⟨start, List.mem_cons_of_mem _ hstart, hpath⟩
  | @action _ _ id _ _ hfind =>
    cases hresult
    exact ⟨id, List.mem_cons_self, id, .refl, hfind⟩
  | @onward _ _ targets top _ _ hfind _ ih =>
    obtain ⟨start, hstart, id, hpath, hid⟩ := ih hresult
    rcases List.mem_append.1 hstart with htarget | hstart
    · exact ⟨top, List.mem_cons_self, id, .head ⟨targets, hfind, htarget⟩ hpath, hid⟩
    · exact ⟨start, List.mem_cons_of_mem _ hstart, id, hpath, hid⟩

theorem Ends.exists_fault {e : Fault} (h : Ends find visited stack (.error e)) :
    ∃ id, find id = .error e := by
  generalize hresult : (.error e : Except Fault (Option Action)) = result at h
  induction h with
  | empty | action => cases hresult
  | fault _ hfind =>
    cases hresult
    exact ⟨_, hfind⟩
  | again _ _ ih | onward _ _ _ ih => exact ih hresult

/-- A loop that finds nothing has visited everything on its stack, and from all it has visited it
went on to what it has visited. -/
theorem Ends.closed (h : Ends find visited stack (.ok none)) :
    ∃ seen, visited ⊆ seen ∧ stack ⊆ seen ∧ ∀ id ∈ seen, id ∉ visited →
      ∃ targets, find id = .ok (.onward targets) ∧ targets ⊆ seen := by
  generalize hresult : (.ok none : Except Fault (Option Action)) = result at h
  induction h with
  | empty =>
    refine ⟨_, List.Subset.refl _, List.nil_subset _, fun id hid hnew => absurd hid hnew⟩
  | fault | action => cases hresult
  | again hid _ ih =>
    obtain ⟨seen, hvisited, hstack, hclosed⟩ := ih hresult
    exact ⟨seen, hvisited, List.cons_subset.2 ⟨hvisited hid, hstack⟩, hclosed⟩
  | @onward visited _ targets top _ _ hfind _ ih =>
    obtain ⟨seen, hvisited, hstack, hclosed⟩ := ih hresult
    obtain ⟨htop, hvisited⟩ := List.cons_subset.1 hvisited
    obtain ⟨htargets, hstack⟩ := List.append_subset.1 hstack
    -- The top has become visited in this turn, so the rest of the loop says nothing about it.
    refine ⟨seen, hvisited, List.cons_subset.2 ⟨htop, hstack⟩, fun id hid hnew => ?_⟩
    by_cases heq : id = top
    · exact ⟨targets, heq ▸ hfind, htargets⟩
    · exact hclosed id hid (by simp [heq, hnew])

theorem Ends.not_found {start id : String} (h : Ends find [] stack (.ok none))
    (hstart : start ∈ stack) (hpath : Relation.ReflTransGen (GoesOn find) start id) :
    ∃ targets, find id = .ok (.onward targets) := by
  obtain ⟨seen, -, hstack, hclosed⟩ := h.closed
  have hseen : id ∈ seen := by
    induction hpath with
    | refl => exact hstack hstart
    | @tail a b _ hstep ih =>
      obtain ⟨targets, hfind, hb⟩ := hstep
      obtain ⟨targets', hfind', hsub⟩ := hclosed a ih List.not_mem_nil
      cases hfind.symm.trans hfind'
      exact hsub hb
  obtain ⟨targets, hfind, -⟩ := hclosed id hseen List.not_mem_nil
  exact ⟨targets, hfind⟩

end Loop

/-! ### Walks -/

theorem Node.action?_eq_none {n : Node} (h : n.kind.role ≠ .action) : n.action? = none := by
  unfold Node.action?
  cases hkind : n.kind <;> simp_all [NodeKind.role]

namespace SubGraph

variable (s : SubGraph) (conditions : String → Option Condition) (ctx : BarContext)

/-- The edges that a node enables at a bar: all its edges, of a condition the first one on the
branch for its outcome, and of an action none. -/
def enabled (n : Node) : List Edge :=
  match n.kind.role with
  | .producer | .passThrough | .container => s.outgoing n.id
  | .condition =>
    match outcome conditions ctx n.id with
    | .ok holds => ((s.outgoing n.id).find? fun e => e.takesBranch holds).toList
    | .error _ => []
  | .action => []

/-- An edge that is enabled at a bar leads from the one id to the other. -/
def Follows (a b : String) : Prop :=
  ∃ n ∈ s.nodes, n.id = a ∧ ∃ e ∈ s.enabled conditions ctx n, e.target = b

/-- No two nodes share an id, and every condition has an outcome at the bar. -/
structure Walkable : Prop where
  /-- No two nodes share an id. -/
  nodup : (s.nodes.map Node.id).Nodup
  /-- The conditions have outcomes. -/
  outcome_ok : ∀ n ∈ s.nodes, n.kind = .condition → ∃ holds, outcome conditions ctx n.id = .ok holds

variable {s conditions ctx} {n : Node} {id a b : String}

theorem find_unknown (h : id ∉ s.nodes.map Node.id) :
    s.find conditions ctx id = .ok (.onward []) := by
  have hnode : s.node? id = none := find?_key_eq_none.2 h
  rw [find, hnode]

namespace Walkable

variable (h : s.Walkable conditions ctx)
include h

theorem find_id (hn : n ∈ s.nodes) : s.find conditions ctx n.id =
    .ok (match n.action? with
      | some direction => .action ⟨direction, n.id⟩
      | none => .onward ((s.enabled conditions ctx n).map Edge.target)) := by
  have hnode : s.node? n.id = some n := (find?_key_iff h.nodup).2 ⟨hn, rfl⟩
  rw [find, hnode, enabled]
  dsimp only
  cases hrole : n.kind.role with
  | action => cases n.action? <;> rfl
  | condition =>
    have hkind : n.kind = .condition := by
      cases hkind : n.kind <;> simp_all [NodeKind.role]
    obtain ⟨holds, houtcome⟩ := h.outcome_ok n hn hkind
    rw [Node.action?_eq_none (by simp [hrole]), houtcome]
    exact congrArg (fun targets => Except.ok (Finding.onward targets)) Option.toList_map
  | producer | passThrough | container => rw [Node.action?_eq_none (by simp [hrole])]

theorem goesOn_iff : GoesOn (s.find conditions ctx) a b ↔ s.Follows conditions ctx a b := by
  constructor
  · rintro ⟨targets, hfind, hb⟩
    by_cases ha : a ∈ s.nodes.map Node.id
    · obtain ⟨n, hn, rfl⟩ := List.mem_map.1 ha
      rw [h.find_id hn] at hfind
      cases haction : n.action? with
      | some direction => simp [haction] at hfind
      | none =>
        rw [haction] at hfind
        cases hfind
        obtain ⟨e, he, rfl⟩ := List.mem_map.1 hb
        exact ⟨n, hn, rfl, e, he, rfl⟩
    · cases hfind.symm.trans (find_unknown ha)
      cases hb
  · rintro ⟨n, hn, rfl, e, he, rfl⟩
    have haction : n.action? = none := by
      refine Node.action?_eq_none fun hrole => ?_
      simp [enabled, hrole] at he
    refine ⟨_, by rw [h.find_id hn, haction], List.mem_map_of_mem he⟩

theorem find_eq_action {action : Action} :
    s.find conditions ctx id = .ok (.action action) ↔
      ∃ n ∈ s.nodes, n.id = id ∧ n.action? = some action.direction ∧ action.nodeId = id := by
  constructor
  · intro hfind
    by_cases hid : id ∈ s.nodes.map Node.id
    · obtain ⟨n, hn, rfl⟩ := List.mem_map.1 hid
      rw [h.find_id hn] at hfind
      cases haction : n.action? with
      | none => simp [haction] at hfind
      | some direction =>
        rw [haction] at hfind
        cases hfind
        exact ⟨n, hn, rfl, haction, rfl⟩
    · cases hfind.symm.trans (find_unknown hid)
  · rintro ⟨n, hn, rfl, haction, hid⟩
    rw [h.find_id hn, haction, ← hid]

theorem find_ok : ∃ finding, s.find conditions ctx id = .ok finding := by
  by_cases hid : id ∈ s.nodes.map Node.id
  · obtain ⟨n, hn, rfl⟩ := List.mem_map.1 hid
    exact ⟨_, h.find_id hn⟩
  · exact ⟨_, find_unknown hid⟩

end Walkable

theorem ends_walk (start : String) :
    Ends (s.find conditions ctx) [] [start] (s.walk conditions ctx start).outcome := by
  have hfresh : Unvisited (s.nodes.map Node.id) [] (s.nodes.map Node.id) := fun id => by simp
  exact depthFirst_ends (fun _ => find_unknown) hfresh (by simp)

/-- **What a walk finds.** If nodes have distinct ids and no condition raises a fault, a walk comes
to an end without a fault. It returns an action if and only if enabled edges lead from its start to
a node with an action, and the action it returns is that of such a node. -/
theorem walk_finds (h : s.Walkable conditions ctx) (start : String) :
    ∃ found, (s.walk conditions ctx start).outcome = .ok found ∧
      (∀ result, Ends (s.find conditions ctx) [] [start] result ↔ result = .ok found) ∧
      (found.isSome ↔ ∃ n ∈ s.nodes, n.action?.isSome ∧
        Relation.ReflTransGen (s.Follows conditions ctx) start n.id) ∧
      ∀ action ∈ found, ∃ n ∈ s.nodes, n.id = action.nodeId ∧ n.action? = some action.direction ∧
        Relation.ReflTransGen (s.Follows conditions ctx) start n.id := by
  have hgoesOn : GoesOn (s.find conditions ctx) = s.Follows conditions ctx := by
    ext a b
    exact h.goesOn_iff
  have hends : Ends (s.find conditions ctx) [] [start] (s.walk conditions ctx start).outcome :=
    ends_walk start
  have hfound : ∀ action : Action,
      Ends (s.find conditions ctx) [] [start] (.ok (some action)) →
      ∃ n ∈ s.nodes, n.id = action.nodeId ∧ n.action? = some action.direction ∧
        Relation.ReflTransGen (s.Follows conditions ctx) start n.id := by
    intro action hends
    obtain ⟨top, htop, id, hpath, hfind⟩ := hends.found
    obtain rfl := List.mem_singleton.1 htop
    obtain ⟨n, hn, rfl, haction, hid⟩ := h.find_eq_action.1 hfind
    exact ⟨n, hn, hid.symm, haction, hgoesOn ▸ hpath⟩
  cases houtcome : (s.walk conditions ctx start).outcome with
  | error e =>
    rw [houtcome] at hends
    obtain ⟨id, hfind⟩ := hends.exists_fault
    have hok : ∃ finding, s.find conditions ctx id = .ok finding := h.find_ok
    rw [hfind] at hok
    obtain ⟨finding, hfinding⟩ := hok
    cases hfinding
  | ok found =>
    rw [houtcome] at hends
    refine ⟨found, rfl, fun result => ⟨fun hresult => hresult.unique hends, ?_⟩, ?_,
      fun action haction => hfound action (haction ▸ hends)⟩
    · rintro rfl
      exact hends
    · cases found with
      | none =>
        simp only [Option.isSome_none, Bool.false_eq_true, false_iff]
        rintro ⟨n, hn, haction, hpath⟩
        obtain ⟨targets, hfind⟩ := hends.not_found List.mem_cons_self (hgoesOn ▸ hpath)
        obtain ⟨direction, hdirection⟩ := Option.isSome_iff_exists.1 haction
        rw [h.find_id hn, hdirection] at hfind
        cases hfind
      | some action =>
        simp only [Option.isSome_some, true_iff]
        obtain ⟨n, hn, -, haction, hpath⟩ := hfound action hends
        exact ⟨n, hn, by simp [haction], hpath⟩

/-- A condition that leads back to itself through a block, with a sale behind it. -/
def ring : SubGraph where
  nodes :=
    [{ id := "guard", kind := .condition }, { id := "hold", kind := .block },
     { id := "leave", kind := .sell }]
  edges :=
    [{ id := "e", source := "guard", target := "leave", label := some "false" },
     { id := "f", source := "guard", target := "hold", label := some "true" },
     { id := "g", source := "hold", target := "guard" },
     { id := "h", source := "hold", target := "leave" }]

/-- One is less than two. -/
def ringCondition : Condition where
  nodeId := "guard"
  left := some (.ofValue (.number (.int 1)))
  right := some (.ofValue (.number (.int 2)))
  operator := some "<"

theorem walk_finds_ring :
    ring.Walkable (fun _ => some ringCondition) ⟨0, .int 1, none, []⟩ ∧
    ∃ n ∈ ring.nodes, n.id = "leave" ∧ n.action? = some .sell ∧
      Relation.ReflTransGen (ring.Follows (fun _ => some ringCondition) ⟨0, .int 1, none, []⟩)
        "guard" n.id := by
  have hwalkable : ring.Walkable (fun _ => some ringCondition) ⟨0, .int 1, none, []⟩ :=
    ⟨by decide, fun _ _ _ => ⟨true, rfl⟩⟩
  obtain ⟨found, houtcome, -, -, hfound⟩ := walk_finds hwalkable "guard"
  have hwalk : (ring.walk (fun _ => some ringCondition) ⟨0, .int 1, none, []⟩ "guard").outcome =
    .ok (some ⟨.sell, "leave"⟩) := rfl
  obtain rfl : some ⟨.sell, "leave"⟩ = found := Except.ok.inj (hwalk.symm.trans houtcome)
  exact ⟨hwalkable, hfound _ rfl⟩

end SubGraph

end StrategyGraph
