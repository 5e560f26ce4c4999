import Mathlib.Order.Bounds.Basic
import StrategyGraph.Proofs.Graph.Search

/-!
# How far a search goes

The rounds of a breadth-first search are the distances from its starts: a vertex is in the round
whose number is the length of a shortest path to it.

* `Steps` : a path of a number of steps;
* `IsDistance` : the length of a shortest path from a nearest start;
* `exists_steps_unfound` : a path to a vertex that the first round does not hold leaves that round, and
  what is left of it leads through vertices not seen until then, so that
  `isDistance_of_unfound` : after the first round all distances are one step shorter;
* `isDistance_of_mem_round` : **the number of its round is the distance of a vertex**;
* `pairwise_search` : **a search lists the vertices in the order of their distances.**
-/

namespace StrategyGraph.Search

variable {α : Type}

/-! ### Paths of a length -/

/-- A path of that many steps leads from a vertex to a vertex. -/
inductive Steps (r : α → α → Prop) : Nat → α → α → Prop
  | refl (v : α) : Steps r 0 v v
  | head {n : Nat} {u v w : α} : r u v → Steps r n v w → Steps r (n + 1) u w

namespace Steps

variable {r r' : α → α → Prop} {m n : Nat} {u v w : α}

theorem mono (h : Steps r n u v) (hr : ∀ a b, r a b → r' a b) : Steps r' n u v := by
  induction h with
  | refl v => exact .refl v
  | head hstep _ ih => exact .head (hr _ _ hstep) ih

theorem tail (h : Steps r n u v) (hstep : r v w) : Steps r (n + 1) u w := by
  induction h with
  | refl v => exact .head hstep (.refl w)
  | head hfirst _ ih => exact .head hfirst (ih hstep)

theorem swap (h : Steps r n u v) : Steps (Function.swap r) n v u := by
  induction h with
  | refl v => exact .refl v
  | head hstep _ ih => exact ih.tail hstep

end Steps

theorem steps_swap_iff {r : α → α → Prop} {n : Nat} {u v : α} :
    Steps (Function.swap r) n v u ↔ Steps r n u v :=
  ⟨Steps.swap, Steps.swap⟩

theorem exists_steps_iff {r : α → α → Prop} {u v : α} :
    (∃ n, Steps r n u v) ↔ Relation.ReflTransGen r u v := by
  constructor
  · rintro ⟨n, h⟩
    induction h with
    | refl v => exact .refl
    | head hstep _ ih => exact .head hstep ih
  · intro h
    induction h with
    | refl => exact ⟨0, .refl u⟩
    | tail _ hstep ih =>
      obtain ⟨n, hn⟩ := ih
      exact ⟨n + 1, hn.tail hstep⟩

/-! ### Distances and rounds -/

/-- A step leads to a listed neighbour. -/
def Follows (next : α → List α) (vertices : List α) (a b : α) : Prop := b ∈ next a ∧ b ∈ vertices

/-- The lengths of the paths from listed starts to a vertex. -/
def lengths (next : α → List α) (vertices starts : List α) (v : α) : Set Nat :=
  {n | ∃ s ∈ starts, s ∈ vertices ∧ Steps (Follows next vertices) n s v}

/-- The shortest path from a nearest listed start to a vertex has that many steps. -/
def IsDistance (next : α → List α) (vertices starts : List α) (v : α) (d : Nat) : Prop :=
  IsLeast (lengths next vertices starts v) d

variable [BEq α] [LawfulBEq α] {next : α → List α} {count d n : Nat}
  {vertices starts unseen frontier : List α} {u v : α}

theorem isDistance_of_mem_found (hv : v ∈ found unseen frontier) :
    IsDistance next unseen frontier v 0 := by
  obtain ⟨hfrontier, hunseen⟩ := mem_found.1 hv
  exact ⟨⟨v, hfrontier, hunseen, .refl v⟩, fun _ _ => Nat.zero_le _⟩

/-- A path to a vertex that the first round does not hold stays outside of that round, or it leaves the
round for good after a first step at least. -/
theorem exists_steps_unfound (h : Steps (Follows next unseen) n u v) (hu : u ∈ unseen)
    (hv : v ∈ unfound unseen frontier) :
    (u ∈ unfound unseen frontier ∧ Steps (Follows next (unfound unseen frontier)) n u v) ∨
      ∃ m ∈ lengths next (unfound unseen frontier) ((found unseen frontier).flatMap next) v,
        m < n := by
  induction h with
  | refl v => exact .inl ⟨hv, .refl v⟩
  | @head n u w v hstep _ ih =>
    rcases ih hstep.2 hv with ⟨hw, hsteps⟩ | ⟨m, hm, hlt⟩
    · by_cases hfound : u ∈ found unseen frontier
      · exact .inr ⟨n, ⟨w, List.mem_flatMap.2 ⟨u, hfound, hstep.1⟩, hw, hsteps⟩, Nat.lt_succ_self n⟩
      · exact .inl ⟨mem_unfound.2 ⟨hu, hfound⟩, .head ⟨hstep.1, hw⟩ hsteps⟩
    · exact .inr ⟨m, hm, Nat.lt_succ_of_lt hlt⟩

/-- After the first round all distances are one step shorter. -/
theorem isDistance_of_unfound
    (h : IsDistance next (unfound unseen frontier) ((found unseen frontier).flatMap next) v d)
    (hv : v ∈ unfound unseen frontier) : IsDistance next unseen frontier v (d + 1) := by
  obtain ⟨⟨s, hs, hunfound, hsteps⟩, hleast⟩ := h
  constructor
  · obtain ⟨u, hu, hnext⟩ := List.mem_flatMap.1 hs
    obtain ⟨hfrontier, hunseen⟩ := mem_found.1 hu
    have hsteps : Steps (Follows next unseen) d s v :=
      hsteps.mono fun a b hb => ⟨hb.1, (mem_unfound.1 hb.2).1⟩
    exact ⟨u, hfrontier, hunseen, .head ⟨hnext, (mem_unfound.1 hunfound).1⟩ hsteps⟩
  · rintro n ⟨u, hfrontier, hunseen, hsteps⟩
    rcases exists_steps_unfound hsteps hunseen hv with ⟨hu, -⟩ | ⟨m, hm, hlt⟩
    · exact absurd (mem_found.2 ⟨hfrontier, hunseen⟩) (mem_unfound.1 hu).2
    · exact Nat.lt_of_le_of_lt (hleast hm) hlt

/-- **The number of its round is the distance of a vertex.** -/
theorem isDistance_of_mem_round {vs : List α} (h : (rounds next count unseen frontier)[d]? = some vs)
    (hv : v ∈ vs) : IsDistance next unseen frontier v d := by
  induction count generalizing unseen frontier d with
  | zero => cases h
  | succ n ih =>
    have hrounds : rounds next (n + 1) unseen frontier =
        if (found unseen frontier).isEmpty then []
        else found unseen frontier :: rounds next n (unfound unseen frontier)
          ((found unseen frontier).flatMap next) := rfl
    rw [hrounds] at h
    split at h
    · cases h
    · cases d with
      | zero =>
        cases h
        exact isDistance_of_mem_found hv
      | succ d =>
        rw [List.getElem?_cons_succ] at h
        have hlater := List.mem_flatten_of_mem (List.mem_of_getElem? h) hv
        exact isDistance_of_unfound (ih h) (reaches_of_mem_rounds hlater).1

theorem exists_isDistance (hv : v ∈ search next vertices starts) :
    ∃ d, IsDistance next vertices starts v d := by
  obtain ⟨vs, hvs, hv⟩ := List.mem_flatten.1 hv
  obtain ⟨d, hd⟩ := List.getElem?_of_mem hvs
  exact ⟨d, isDistance_of_mem_round hd hv⟩

/-- Neither vertex is unreachable, and the first one is not farther from the starts. -/
def NoFarther (next : α → List α) (vertices starts : List α) (v w : α) : Prop :=
  ∃ d e, IsDistance next vertices starts v d ∧ IsDistance next vertices starts w e ∧ d ≤ e

/-- **A search lists the vertices in the order of their distances.** -/
theorem pairwise_search :
    (search next vertices starts).Pairwise (NoFarther next vertices starts) := by
  rw [search, List.pairwise_flatten]
  constructor
  · intro vs hvs
    obtain ⟨d, hd⟩ := List.getElem?_of_mem hvs
    refine List.pairwise_of_forall_mem_list fun v hv w hw => ?_
    exact ⟨d, d, isDistance_of_mem_round hd hv, isDistance_of_mem_round hd hw, Nat.le_refl d⟩
  · refine List.pairwise_iff_getElem.2 fun d e hd he hlt v hv w hw => ?_
    exact ⟨d, e, isDistance_of_mem_round (List.getElem?_eq_getElem hd) hv,
      isDistance_of_mem_round (List.getElem?_eq_getElem he) hw, Nat.le_of_lt hlt⟩

end StrategyGraph.Search
