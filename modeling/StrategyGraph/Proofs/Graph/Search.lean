import Mathlib.Data.List.Nodup
import Mathlib.Logic.Relation
import StrategyGraph.Graph.Search

/-!
# What searches find

A breadth-first search finds exactly the vertices that can be reached from its starts.

* `Reaches` : a path leads from a vertex to a vertex, through listed vertices;
* `mem_search_iff` : the vertices that a search lists. That it lists no others is
  `reaches_of_mem_rounds`; that it lists all is `frontier_mem_rounds`, for the next round, and
  `next_mem_rounds`, for the step from a vertex to its neighbours;
* `nodup_search` : no vertex is listed twice.
-/

namespace StrategyGraph.Search

variable {α : Type}

/-- A path leads from a vertex to a vertex, and all vertices after the first one are listed. -/
def Reaches (next : α → List α) (vertices : List α) : α → α → Prop :=
  Relation.ReflTransGen fun a b => b ∈ next a ∧ b ∈ vertices

theorem Reaches.mono {next : α → List α} {vertices vertices' : List α} {v w : α}
    (h : Reaches next vertices v w) (hsub : ∀ a ∈ vertices, a ∈ vertices') :
    Reaches next vertices' v w :=
  Relation.ReflTransGen.mono (fun _ b hb => ⟨hb.1, hsub b hb.2⟩) _ _ h

variable [BEq α]

/-- The vertices of the next round. -/
def found (unseen frontier : List α) : List α := (frontier.filter unseen.contains).eraseDups

/-- The vertices that stay unseen after the next round. -/
def unfound (unseen frontier : List α) : List α :=
  unseen.filter fun v => !(found unseen frontier).contains v

variable [LawfulBEq α] {next : α → List α} {count : Nat} {vertices starts unseen frontier : List α}
  {v w : α}

theorem mem_found : v ∈ found unseen frontier ↔ v ∈ frontier ∧ v ∈ unseen := by
  rw [found, List.mem_eraseDups, List.mem_filter, List.contains_iff_mem]

theorem mem_unfound : v ∈ unfound unseen frontier ↔ v ∈ unseen ∧ v ∉ found unseen frontier := by
  simp [unfound]

theorem nodup_eraseDups (vs : List α) : vs.eraseDups.Nodup := by
  cases vs with
  | nil => exact List.nodup_nil
  | cons v vs =>
    rw [List.eraseDups_cons]
    refine List.nodup_cons.2 ⟨fun hv => ?_, nodup_eraseDups _⟩
    simpa using List.mem_eraseDups.1 hv
termination_by vs.length
decreasing_by exact Nat.lt_succ_of_le (List.length_filter_le _ _)

theorem length_unfound (h : v ∈ found unseen frontier) :
    (unfound unseen frontier).length < unseen.length :=
  List.length_filter_lt_length_iff_exists.2 ⟨v, (mem_found.1 h).2, by simpa using h⟩

/-! ### Rounds -/

omit [LawfulBEq α] in
theorem rounds_nil : rounds next count unseen [] = [] := by
  cases count <;> rfl

omit [LawfulBEq α] in
/-- The vertices of the next round come before those of later ones. -/
theorem flatten_rounds_succ : (rounds next (count + 1) unseen frontier).flatten =
    found unseen frontier ++
      (rounds next count (unfound unseen frontier) ((found unseen frontier).flatMap next)).flatten := by
  have hrounds : rounds next (count + 1) unseen frontier =
      if (found unseen frontier).isEmpty then []
      else found unseen frontier :: rounds next count (unfound unseen frontier)
        ((found unseen frontier).flatMap next) := rfl
  rw [hrounds]
  split
  · next hempty =>
    rw [List.isEmpty_iff.1 hempty, List.flatMap_nil, rounds_nil]
    rfl
  · rfl

omit [LawfulBEq α] in
theorem mem_rounds_succ : v ∈ (rounds next (count + 1) unseen frontier).flatten ↔
    v ∈ found unseen frontier ∨
      v ∈ (rounds next count (unfound unseen frontier)
        ((found unseen frontier).flatMap next)).flatten := by
  rw [flatten_rounds_succ, List.mem_append]

theorem reaches_of_mem_rounds (h : v ∈ (rounds next count unseen frontier).flatten) :
    v ∈ unseen ∧ ∃ s ∈ frontier, s ∈ unseen ∧ Reaches next unseen s v := by
  induction count generalizing unseen frontier with
  | zero => exact absurd h List.not_mem_nil
  | succ n ih =>
    rcases mem_rounds_succ.1 h with hfound | hlater
    · obtain ⟨hfrontier, hunseen⟩ := mem_found.1 hfound
      exact ⟨hunseen, v, hfrontier, hunseen, .refl⟩
    · obtain ⟨hv, s, hs, hunseen, hpath⟩ := ih hlater
      obtain ⟨u, hu, hnext⟩ := List.mem_flatMap.1 hs
      obtain ⟨hfrontier, hu⟩ := mem_found.1 hu
      have hpath : Reaches next unseen s v := hpath.mono fun a ha => (mem_unfound.1 ha).1
      exact ⟨(mem_unfound.1 hv).1, u, hfrontier, hu,
        .head ⟨hnext, (mem_unfound.1 hunseen).1⟩ hpath⟩

theorem frontier_mem_rounds (hcount : unseen.length ≤ count) (hv : v ∈ frontier)
    (hunseen : v ∈ unseen) : v ∈ (rounds next count unseen frontier).flatten := by
  cases count with
  | zero => exact absurd hunseen (List.eq_nil_of_length_eq_zero (Nat.le_zero.1 hcount) ▸ by simp)
  | succ n => exact mem_rounds_succ.2 (.inl (mem_found.2 ⟨hv, hunseen⟩))

theorem next_mem_rounds (hcount : unseen.length ≤ count)
    (h : v ∈ (rounds next count unseen frontier).flatten) (hw : w ∈ next v) (hunseen : w ∈ unseen) :
    w ∈ (rounds next count unseen frontier).flatten := by
  induction count generalizing unseen frontier with
  | zero => exact absurd h List.not_mem_nil
  | succ n ih =>
    by_cases hfound : w ∈ found unseen frontier
    · exact mem_rounds_succ.2 (.inl hfound)
    · have hunfound : w ∈ unfound unseen frontier := mem_unfound.2 ⟨hunseen, hfound⟩
      refine mem_rounds_succ.2 (.inr ?_)
      -- The neighbours of this round make up the next frontier; those of later rounds are the
      -- induction's.
      rcases mem_rounds_succ.1 h with hv | hlater
      · have := length_unfound hv
        exact frontier_mem_rounds (by omega) (List.mem_flatMap.2 ⟨v, hv, hw⟩) hunfound
      · obtain ⟨-, s, hs, -⟩ := reaches_of_mem_rounds hlater
        obtain ⟨u, hu, -⟩ := List.mem_flatMap.1 hs
        have := length_unfound hu
        exact ih (by omega) hlater hunfound

/-- A vertex is found once: those of later rounds were unseen until then. -/
theorem nodup_rounds : (rounds next count unseen frontier).flatten.Nodup := by
  induction count generalizing unseen frontier with
  | zero => exact List.nodup_nil
  | succ n ih =>
    have hlater : List.Disjoint (found unseen frontier)
        (rounds next n (unfound unseen frontier) ((found unseen frontier).flatMap next)).flatten :=
      fun v hv hlater => (mem_unfound.1 (reaches_of_mem_rounds hlater).1).2 hv
    rw [flatten_rounds_succ]
    exact (nodup_eraseDups _).append ih hlater

theorem nodup_search : (search next vertices starts).Nodup := nodup_rounds

/-- **A search finds what can be reached.** -/
theorem mem_search_iff : v ∈ search next vertices starts ↔
    ∃ s ∈ starts, s ∈ vertices ∧ Reaches next vertices s v := by
  constructor
  · intro h
    exact (reaches_of_mem_rounds h).2
  · rintro ⟨s, hs, hlisted, hpath⟩
    induction hpath with
    | refl => exact frontier_mem_rounds (Nat.le_refl _) hs hlisted
    | tail _ hstep ih => exact next_mem_rounds (Nat.le_refl _) ih hstep.1 hstep.2

end StrategyGraph.Search
