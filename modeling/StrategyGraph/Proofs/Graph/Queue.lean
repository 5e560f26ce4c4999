import StrategyGraph.Proofs.Graph.Search

/-!
# Searching with a queue

A breadth-first search may keep one queue and take its vertices off one by one. If a vertex is marked
as seen only when it is taken off, then the queue holds vertices more than once, and holds some that
were seen before. Such a queue is worked off round by round all the same.

* `drain` : the vertices that are taken off for the first time, in this order;
* `drain_congr` : only the unseen vertices of the queue count, so that it makes no difference whether
  others are put on it;
* `drain_append` : the vertices of a round are taken off before those that they put on the queue;
* `drain_eq_search` : **a queue lists what the rounds of a search list.**
-/

namespace StrategyGraph.Search

variable {α : Type} [BEq α]

/-- The vertices that stay unseen once `v` is seen. -/
def without (v : α) (unseen : List α) : List α := unseen.filter fun w => !w == v

variable [LawfulBEq α]

theorem mem_without {v w : α} {unseen : List α} : w ∈ without v unseen ↔ w ∈ unseen ∧ w ≠ v := by
  simp [without]

theorem length_without {v : α} {unseen : List α} (h : v ∈ unseen) :
    (without v unseen).length < unseen.length :=
  List.length_filter_lt_length_iff_exists.2 ⟨v, h, by simp⟩

/-- What is put on the queue after `v`: its neighbours, or those of them that are unseen. -/
def added (next : α → List α) (onlyUnseen : Bool) (unseen : List α) (v : α) : List α :=
  if onlyUnseen then (next v).filter unseen.contains else next v

/-- Takes the vertices off a queue until it is empty. A vertex that is `unseen` is marked and listed, and
its neighbours are put at the end of the queue, without those seen before if `onlyUnseen` says so. -/
def drain (next : α → List α) (onlyUnseen : Bool) (unseen queue : List α) : List α :=
  match queue with
  | [] => []
  | v :: queue =>
    if h : v ∈ unseen then
      have := length_without h
      v :: drain next onlyUnseen (without v unseen)
        (queue ++ added next onlyUnseen (without v unseen) v)
    else drain next onlyUnseen unseen queue
termination_by (unseen.length, queue.length)

variable {next : α → List α} {only only' : Bool} {count : Nat}
  {vertices starts unseen frontier queue queue' later vs : List α} {v : α}

theorem drain_nil : drain next only unseen [] = [] := by
  rw [drain]

theorem drain_of_seen (h : v ∉ unseen) :
    drain next only unseen (v :: queue) = drain next only unseen queue := by
  rw [drain, dif_neg h]

theorem drain_of_unseen (h : v ∈ unseen) : drain next only unseen (v :: queue) =
    v :: drain next only (without v unseen) (queue ++ added next only (without v unseen) v) := by
  rw [drain, dif_pos h]

/-! ### Vertices that were seen before -/

theorem drain_append_of_seen (h : ∀ v ∈ vs, v ∉ unseen) :
    drain next only unseen (vs ++ queue) = drain next only unseen queue := by
  induction vs with
  | nil => rfl
  | cons v vs ih =>
    obtain ⟨hv, hvs⟩ := List.forall_mem_cons.1 h
    rw [List.cons_append, drain_of_seen hv, ih hvs]

omit [LawfulBEq α] in
theorem filter_added (next : α → List α) (only : Bool) (unseen : List α) (v : α) :
    (added next only unseen v).filter unseen.contains = (next v).filter unseen.contains := by
  cases only with
  | false => rfl
  | true => rw [added, if_pos rfl, List.filter_filter, funext fun w => Bool.and_self _]

theorem filter_without (vs : List α) :
    vs.filter (without v unseen).contains =
      (vs.filter unseen.contains).filter (without v unseen).contains := by
  rw [List.filter_filter]
  refine List.filter_congr fun w _ => ?_
  rw [Bool.eq_iff_iff, Bool.and_eq_true, List.contains_iff_mem, List.contains_iff_mem, mem_without]
  exact ⟨fun h => ⟨h, h.1⟩, fun h => h.1⟩

/-- Only the unseen vertices of the queue count. -/
theorem drain_congr (h : queue.filter unseen.contains = queue'.filter unseen.contains) :
    drain next only unseen queue = drain next only' unseen queue' := by
  induction hn : unseen.length using Nat.strongRecOn generalizing unseen queue queue' with
  | _ n ih =>
    subst hn
    cases hfilter : queue.filter unseen.contains with
    | nil =>
      have hnone : ∀ {queue : List α} {only : Bool}, queue.filter unseen.contains = [] →
          drain next only unseen queue = [] := by
        intro queue only hqueue
        have hseen : ∀ v ∈ queue, v ∉ unseen := by simpa using hqueue
        rw [← List.append_nil queue, drain_append_of_seen hseen, drain_nil]
      rw [hnone hfilter, hnone (h ▸ hfilter)]
    | cons v vs =>
      -- Both queues have the same first unseen vertex, and the same ones after it.
      obtain ⟨before, after, rfl, hbefore, hv, hafter⟩ := List.filter_eq_cons_iff.1 hfilter
      obtain ⟨before', after', rfl, hbefore', -, hafter'⟩ := List.filter_eq_cons_iff.1 (h ▸ hfilter)
      have hv : v ∈ unseen := by simpa using hv
      have hseen : ∀ w ∈ before, w ∉ unseen := by simpa using hbefore
      have hseen' : ∀ w ∈ before', w ∉ unseen := by simpa using hbefore'
      rw [drain_append_of_seen hseen, drain_append_of_seen hseen', drain_of_unseen hv,
        drain_of_unseen hv]
      refine congrArg (v :: ·) (ih _ (length_without hv) ?_ rfl)
      rw [List.filter_append, List.filter_append, filter_added, filter_added, filter_without after,
        filter_without after', hafter, hafter']

/-! ### Rounds of a queue -/

theorem found_cons (hv : v ∈ unseen) :
    found unseen (v :: frontier) = v :: found (without v unseen) frontier := by
  have hcontains : unseen.contains v = true := by simpa using hv
  rw [found, List.filter_cons_of_pos hcontains, List.eraseDups_cons, found, List.filter_filter]
  congr 2
  refine List.filter_congr fun w _ => ?_
  rw [Bool.eq_iff_iff, List.contains_iff_mem, mem_without]
  simp [and_comm]

theorem unfound_cons (hv : v ∈ unseen) :
    unfound unseen (v :: frontier) = unfound (without v unseen) frontier := by
  rw [unfound, found_cons hv, unfound]
  generalize found (without v unseen) frontier = vs
  rw [without, List.filter_filter]
  refine List.filter_congr fun w _ => ?_
  rw [List.contains_cons, Bool.not_or, Bool.and_comm]

theorem found_of_seen (hv : v ∉ unseen) :
    found unseen (v :: frontier) = found unseen frontier := by
  simp [found, hv]

/-- The vertices of a round are taken off before those that they put on the queue. -/
theorem drain_append (next : α → List α) (unseen frontier later : List α) :
    drain next false unseen (frontier ++ later) = found unseen frontier ++
      drain next false (unfound unseen frontier) (later ++ (found unseen frontier).flatMap next) := by
  induction frontier generalizing unseen later with
  | nil => simp [unfound, found]
  | cons v frontier ih =>
    by_cases hv : v ∈ unseen
    · rw [List.cons_append, drain_of_unseen hv, found_cons hv, unfound_cons hv, List.append_assoc, ih]
      simp [added]
    · rw [List.cons_append, drain_of_seen hv, ih, unfound, unfound, found_of_seen hv]

/-- **A queue lists what the rounds of a search list**, whether or not vertices that were seen before
are put on it. -/
theorem drain_eq_search : drain next only vertices starts = search next vertices starts := by
  suffices h : ∀ count unseen frontier, unseen.length ≤ count →
      drain next false unseen frontier = (rounds next count unseen frontier).flatten from
    (drain_congr rfl).trans (h _ vertices starts (Nat.le_refl _))
  intro count
  induction count with
  | zero =>
    intro unseen frontier hcount
    obtain rfl : unseen = [] := List.eq_nil_of_length_eq_zero (Nat.le_zero.1 hcount)
    rw [← List.append_nil frontier, drain_append_of_seen (by simp), drain_nil]
    rfl
  | succ n ih =>
    intro unseen frontier hcount
    have hround := drain_append next unseen frontier []
    rw [List.append_nil, List.nil_append] at hround
    rw [hround, flatten_rounds_succ]
    cases hfound : found unseen frontier with
    | nil => rw [List.flatMap_nil, drain_nil, rounds_nil, List.flatten_nil]
    | cons v vs =>
      have hlength := length_unfound (hfound ▸ List.mem_cons_self : v ∈ found unseen frontier)
      rw [ih _ _ (by omega)]

end StrategyGraph.Search
