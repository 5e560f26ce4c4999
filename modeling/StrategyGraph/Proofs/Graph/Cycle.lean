import Mathlib.Logic.Relation
import StrategyGraph.Graph.Basic
import StrategyGraph.Proofs.Keyed

/-!
# Searching for a cycle

A depth-first search that comes back to a vertex on its path has found a cycle, and one that comes
back to no such vertex shows that there is none.

* `Search.Explores` : the search without a bound on its depth;
* `Search.explores_foldlM` : a search as deep as there are fresh vertices is this search, which
  therefore comes to an end;
* `Search.Explores.cycle` and `Search.Explores.acc` : what is come back to lies on a cycle, and from
  what was gone through otherwise all paths end;
* `SubGraph.OnCycle` and `SubGraph.Acyclic` : cycles of a sub-graph;
* `SubGraph.onCycle_of_cycle?` and `SubGraph.isSome_cycle?_iff` : what the search for a cycle says.
-/

namespace StrategyGraph

namespace Search

variable {α : Type} {next : α → List α} {v : α}

theorem not_transGen_of_acc (h : Acc (fun a b => a ∈ next b) v) :
    ¬Relation.TransGen (fun a b => b ∈ next a) v v := by
  induction h with
  | intro v _ ih =>
    intro hcycle
    obtain ⟨w, hw, hback⟩ := Relation.TransGen.head'_iff.1 hcycle
    exact ih w hw (.tail' hback hw)

/-- How a depth-first search goes through a list of vertices. `path` leads down to them, its nearest
vertex first, and `fresh` are the vertices that were not entered. The search comes back to a vertex
on its path, or it leaves some vertices fresh. -/
inductive Explores [BEq α] (next : α → List α) :
    List α → List α → List α → Except α (List α) → Prop
  /-- All vertices were gone through. -/
  | done {path fresh : List α} : Explores next path fresh [] (.ok fresh)
  /-- The first vertex lies on the path. -/
  | back {path fresh ws : List α} {w : α} (hpath : w ∈ path) :
      Explores next path fresh (w :: ws) (.error w)
  /-- The first vertex was entered before. -/
  | pass {path fresh ws : List α} {w : α} {result : Except α (List α)} (hpath : w ∉ path)
      (hfresh : w ∉ fresh) (h : Explores next path fresh ws result) :
      Explores next path fresh (w :: ws) result
  /-- Below the first vertex, the search comes back. -/
  | stop {path fresh ws : List α} {w v : α} (hpath : w ∉ path) (hfresh : w ∈ fresh)
      (h : Explores next (w :: path) (fresh.erase w) (next w) (.error v)) :
      Explores next path fresh (w :: ws) (.error v)
  /-- The first vertex is entered and left, and the search goes on. -/
  | leave {path fresh rest ws : List α} {w : α} {result : Except α (List α)} (hpath : w ∉ path)
      (hfresh : w ∈ fresh) (h : Explores next (w :: path) (fresh.erase w) (next w) (.ok rest))
      (hrest : Explores next path rest ws result) : Explores next path fresh (w :: ws) result

/-- What a search comes back to. -/
def met? (result : Except α (List α)) : Option α :=
  match result with
  | .error v => some v
  | .ok _ => none

section Explores

variable [BEq α] {path fresh rest ws : List α} {w : α} {result result' : Except α (List α)}

theorem Explores.unique (h : Explores next path fresh ws result)
    (h' : Explores next path fresh ws result') : result = result' := by
  induction h generalizing result' with
  | done =>
    cases h'
    rfl
  | back hpath =>
    cases h' with
    | back => rfl
    | pass hnew | stop hnew | leave hnew => exact absurd hpath hnew
  | pass hpath hfresh _ ih =>
    cases h' with
    | back hold => exact absurd hold hpath
    | pass _ _ h' => exact ih h'
    | stop _ hnew | leave _ hnew => exact absurd hnew hfresh
  | stop hpath hfresh _ ih =>
    cases h' with
    | back hold => exact absurd hold hpath
    | pass _ hold => exact absurd hfresh hold
    | stop _ _ h' => exact ih h'
    | leave _ _ h' => cases ih h'
  | leave hpath hfresh _ _ ih ihrest =>
    cases h' with
    | back hold => exact absurd hold hpath
    | pass _ hold => exact absurd hfresh hold
    | stop _ _ h' => cases ih h'
    | leave _ _ h' hrest' =>
      cases ih h'
      exact ihrest hrest'

theorem Explores.length_le (h : Explores next path fresh ws (.ok rest)) :
    rest.length ≤ fresh.length := by
  generalize hresult : (.ok rest : Except α (List α)) = result at h
  induction h generalizing rest with
  | done =>
    cases hresult
    exact Nat.le_refl _
  | back | stop => cases hresult
  | pass _ _ _ ih => exact ih hresult
  | leave _ _ _ _ ih ihrest =>
    exact Nat.le_trans (ihrest hresult) (Nat.le_trans (ih rfl) List.length_erase_le)

/-! ### Back on the path -/

/-- **What a search comes back to lies on a cycle**, if its path leads to the vertices that it goes
through. -/
theorem Explores.cycle (h : Explores next path fresh ws (.error v))
    (hpath : ∀ p ∈ path, ∀ w ∈ ws, Relation.TransGen (fun a b => b ∈ next a) p w) :
    Relation.TransGen (fun a b => b ∈ next a) v v := by
  generalize hresult : (.error v : Except α (List α)) = result at h
  induction h with
  | done => cases hresult
  | back hmem =>
    cases hresult
    exact hpath _ hmem _ List.mem_cons_self
  | pass _ _ _ ih => exact ih (fun p hp w hw => hpath p hp w (List.mem_cons_of_mem _ hw)) hresult
  | @stop _ _ _ w _ _ _ _ ih =>
    -- Below `w` the path leads to its neighbours: from `w` by an edge, from the others through `w`.
    refine ih (fun p hp u hu => ?_) hresult
    rcases List.mem_cons.1 hp with rfl | hp
    · exact .single hu
    · exact .tail (hpath p hp w List.mem_cons_self) hu
  | leave _ _ _ _ _ ih =>
    exact ih (fun p hp w hw => hpath p hp w (List.mem_cons_of_mem _ hw)) hresult

end Explores

/-! ### Never back on the path -/

variable [BEq α] [LawfulBEq α] {path fresh rest ws vertices : List α} {w : α} {depth : Nat}

/-- **If a search never comes back, all paths from what it went through end.** Vertices that are not
fresh lie on the path, or all paths from them end: this holds before every step of the search, and a
vertex is left when it holds of all its neighbours. -/
theorem Explores.acc (h : Explores next path fresh ws (.ok rest))
    (hclosed : ∀ v ∈ vertices, ∀ w ∈ next v, w ∈ vertices) (hws : ∀ w ∈ ws, w ∈ vertices)
    (hfresh : ∀ v ∈ vertices, v ∉ fresh → v ∈ path ∨ Acc (fun a b => a ∈ next b) v) :
    (∀ v ∈ vertices, v ∉ rest → v ∈ path ∨ Acc (fun a b => a ∈ next b) v) ∧
      ∀ w ∈ ws, Acc (fun a b => a ∈ next b) w := by
  generalize hresult : (.ok rest : Except α (List α)) = result at h
  induction h generalizing rest with
  | done =>
    cases hresult
    exact ⟨hfresh, fun w hw => absurd hw List.not_mem_nil⟩
  | back | stop => cases hresult
  | pass hpath hold _ ih =>
    obtain ⟨hw, hws⟩ := List.forall_mem_cons.1 hws
    obtain ⟨hrest, hacc⟩ := ih hws hfresh hresult
    exact ⟨hrest, List.forall_mem_cons.2 ⟨(hfresh _ hw hold).resolve_left hpath, hacc⟩⟩
  | @leave path fresh _ _ w _ hpath hnew _ _ ih ihrest =>
    obtain ⟨hw, hws⟩ := List.forall_mem_cons.1 hws
    -- `w` is fresh no more once it is entered, but then it lies on the path.
    have hentered : ∀ v ∈ vertices, v ∉ fresh.erase w →
        v ∈ w :: path ∨ Acc (fun a b => a ∈ next b) v := by
      intro v hv hgone
      by_cases heq : v = w
      · exact .inl (heq ▸ List.mem_cons_self)
      · have hold : v ∉ fresh := fun hmem => hgone ((List.mem_erase_of_ne heq).2 hmem)
        exact (hfresh v hv hold).imp_left (List.mem_cons_of_mem _)
    obtain ⟨hleft, hnext⟩ := ih (hclosed w hw) hentered rfl
    have hacc : Acc (fun a b => a ∈ next b) w := ⟨w, hnext⟩
    -- It leaves the path as soon as all paths from it end.
    obtain ⟨hrest, haccs⟩ := ihrest hws
      (fun v hv hgone => by
        rcases hleft v hv hgone with hmem | hmem
        · rcases List.mem_cons.1 hmem with rfl | hmem
          · exact .inr hacc
          · exact .inl hmem
        · exact .inr hmem) hresult
    exact ⟨hrest, List.forall_mem_cons.2 ⟨hacc, haccs⟩⟩

/-! ### The bounded search -/

/-- A bounded search looks at one vertex. -/
def visit (next : α → List α) (depth : Nat) (path fresh : List α) (w : α) : Except α (List α) :=
  if path.contains w then .error w
  else if fresh.contains w then enter next depth path fresh w
  else .ok fresh

/-- A bounded search is one without a bound, if that is so below each vertex that it enters. -/
theorem explores_visit
    (henter : ∀ fresh w, w ∈ fresh → fresh.length ≤ depth →
      Explores next (w :: path) (fresh.erase w) (next w) (enter next depth path fresh w))
    (hdepth : fresh.length ≤ depth) :
    Explores next path fresh ws (ws.foldlM (visit next depth path) fresh) := by
  induction ws generalizing fresh with
  | nil => exact .done
  | cons w ws ih =>
    rw [List.foldlM_cons, visit]
    by_cases hpath : w ∈ path
    · rw [if_pos (by simpa using hpath)]
      exact .back hpath
    · rw [if_neg (by simpa using hpath)]
      by_cases hfresh : w ∈ fresh
      · rw [if_pos (by simpa using hfresh)]
        have hbelow := henter fresh w hfresh hdepth
        cases hresult : enter next depth path fresh w with
        | error v => exact .stop hpath hfresh (hresult ▸ hbelow)
        | ok rest =>
          rw [hresult] at hbelow
          have hless := Nat.le_trans hbelow.length_le List.length_erase_le
          exact .leave hpath hfresh hbelow (ih (Nat.le_trans hless hdepth))
      · rw [if_neg (by simpa using hfresh)]
        exact .pass hpath hfresh (ih hdepth)

/-- **A search that may go as deep as there are fresh vertices is not cut off.** -/
theorem enter_explores (hfresh : w ∈ fresh) (hdepth : fresh.length ≤ depth) :
    Explores next (w :: path) (fresh.erase w) (next w) (enter next depth path fresh w) := by
  induction depth generalizing path fresh w with
  | zero => exact absurd hfresh (List.eq_nil_of_length_eq_zero (Nat.le_zero.1 hdepth) ▸ by simp)
  | succ n ih =>
    have henter : enter next (n + 1) path fresh w =
        (next w).foldlM (visit next n (w :: path)) (fresh.erase w) := rfl
    -- One vertex less is fresh below `w`, and the search may go one step less deep.
    have hlength := List.length_erase_of_mem hfresh
    rw [henter]
    exact explores_visit (fun _ _ hfresh hdepth => ih hfresh hdepth) (by omega)

/-- **The search for a cycle comes to an end**, and it answers with what it comes back to. -/
theorem exists_explores (next : α → List α) (vertices : List α) :
    ∃ result, Explores next [] vertices vertices result ∧ cycle? next vertices = met? result := by
  refine ⟨_, explores_visit (fun _ _ hfresh hdepth => enter_explores hfresh hdepth)
    (Nat.le_refl _), ?_⟩
  -- At the outset no vertex lies on the path, so the search does not look for it there.
  have hvisit : visit next vertices.length [] = fun fresh v =>
      if fresh.contains v then enter next vertices.length [] fresh v else .ok fresh := rfl
  rw [cycle?, hvisit]
  split <;> next h => rw [h]; rfl

theorem transGen_of_cycle? (h : cycle? next vertices = some v) :
    Relation.TransGen (fun a b => b ∈ next a) v v := by
  obtain ⟨result, hexplores, hcycle⟩ := exists_explores next vertices
  cases result with
  | ok rest => cases hcycle.symm.trans h
  | error u =>
    cases hcycle.symm.trans h
    exact hexplores.cycle fun p hp => absurd hp List.not_mem_nil

theorem not_transGen_of_cycle? (h : cycle? next vertices = none)
    (hclosed : ∀ v ∈ vertices, ∀ w ∈ next v, w ∈ vertices) (hv : v ∈ vertices) :
    ¬Relation.TransGen (fun a b => b ∈ next a) v v := by
  obtain ⟨result, hexplores, hcycle⟩ := exists_explores next vertices
  cases result with
  | error u => cases hcycle.symm.trans h
  | ok rest =>
    have hfresh : ∀ v ∈ vertices, v ∉ vertices → v ∈ [] ∨ Acc (fun a b => a ∈ next b) v :=
      fun v hv hnew => absurd hv hnew
    exact not_transGen_of_acc ((hexplores.acc hclosed (fun w hw => hw) hfresh).2 v hv)

end Search

/-! ### Cycles of a sub-graph -/

namespace SubGraph

/-- The ids of the nodes. -/
def ids (s : SubGraph) : List String := s.nodes.map Node.id

/-- An edge leads from the one id to the other. -/
def Leads (s : SubGraph) (a b : String) : Prop := ∃ e ∈ s.edges, e.source = a ∧ e.target = b

/-- The edges lie between nodes of the sub-graph. -/
structure Closed (s : SubGraph) : Prop where
  /-- The source of an edge is a node. -/
  source : ∀ e ∈ s.edges, e.source ∈ s.ids
  /-- The target of an edge is a node. -/
  target : ∀ e ∈ s.edges, e.target ∈ s.ids

/-- The edges lead back to the node with an id. -/
def OnCycle (s : SubGraph) (id : String) : Prop := Relation.TransGen s.Leads id id

/-- No node lies on a cycle. -/
def Acyclic (s : SubGraph) : Prop := ∀ id, ¬s.OnCycle id

variable {s : SubGraph} {a b id : String}

theorem mem_outgoing_map : b ∈ (s.outgoing a).map Edge.target ↔ s.Leads a b := mem_map_filter_key

theorem leads_eq : (fun a b => b ∈ (s.outgoing a).map Edge.target) = s.Leads := by
  ext a b
  exact mem_outgoing_map

theorem Closed.mem_ids_of_onCycle (hs : s.Closed) (h : s.OnCycle id) : id ∈ s.ids := by
  obtain ⟨_, ⟨e, he, rfl, -⟩, -⟩ := Relation.TransGen.head'_iff.1 h
  exact hs.source e he

theorem closed_empty : Closed {} := ⟨by simp, by simp⟩

theorem onCycle_of_cycle? (h : s.cycle? = some id) : s.OnCycle id := by
  rw [OnCycle, ← leads_eq]
  exact Search.transGen_of_cycle? h

theorem acyclic_of_cycle? (hs : s.Closed) (h : s.cycle? = none) : s.Acyclic := by
  intro id hcycle
  have hclosed : ∀ v ∈ s.ids, ∀ w ∈ (s.outgoing v).map Edge.target, w ∈ s.ids := by
    intro v _ w hw
    obtain ⟨e, he, -, rfl⟩ := mem_outgoing_map.1 hw
    exact hs.target e he
  have hsearch := Search.not_transGen_of_cycle? h hclosed (hs.mem_ids_of_onCycle hcycle)
  rw [leads_eq] at hsearch
  exact hsearch hcycle

/-- **A cycle is found if and only if there is one.** -/
theorem isSome_cycle?_iff (hs : s.Closed) : s.cycle?.isSome ↔ ∃ id ∈ s.ids, s.OnCycle id := by
  constructor
  · intro h
    obtain ⟨id, hid⟩ := Option.isSome_iff_exists.1 h
    have hcycle := onCycle_of_cycle? hid
    exact ⟨id, hs.mem_ids_of_onCycle hcycle, hcycle⟩
  · rintro ⟨id, -, hcycle⟩
    cases h : s.cycle? with
    | some id => rfl
    | none => exact absurd hcycle (acyclic_of_cycle? hs h id)

end SubGraph

end StrategyGraph
