import Mathlib.Data.List.Chain
import StrategyGraph.Price.Bar

/-!
# Bars in order

Bars are sorted by time if all times are known. If a time is missing they keep the order in which
they were listed, and then a bar may be earlier than the one before it.

* `Bar.FirstDescent` : the first bar that is earlier than the one before it stands at a place;
* `Bar.perm_inOrder`, `Bar.pairwise_inOrder` and `Bar.filter_inOrder` : **no bar is lost, bars whose
  times are known do not descend, and bars of the same time keep their order**;
* `Bar.inOrder_inOrder` : bars that are in order stay as they are;
* `Bar.missing_of_firstDescent` : where bars descend a time is missing, and the order is as listed.
-/

namespace StrategyGraph

namespace Bar

variable {a b : Bar} {bars : List Bar} {k : Nat}

theorem notAfter_eq_false_iff :
    a.notAfter b = false ↔ ∃ s t, a.time = some s ∧ b.time = some t ∧ t < s := by
  rw [notAfter]
  cases a.time with
  | none => simp
  | some s =>
    cases b.time with
    | none => simp
    | some t => simp

/-- The first bar that is earlier than the one before it stands at the place `k`. -/
def FirstDescent (bars : List Bar) (k : Nat) : Prop :=
  ∃ before a b after, bars = before ++ a :: b :: after ∧ k = before.length + 1 ∧
    (before ++ [a]).IsChain (fun x y => x.notAfter y = true) ∧
    ∃ s t, a.time = some s ∧ b.time = some t ∧ t < s

theorem firstDescent_cons :
    FirstDescent (a :: b :: bars) k ↔
      k = 1 ∧ a.notAfter b = false ∨
        a.notAfter b = true ∧ ∃ i, k = i + 1 ∧ FirstDescent (b :: bars) i := by
  constructor
  · rintro ⟨before, x, y, after, hbars, rfl, hchain, hdescent⟩
    cases before with
    | nil =>
      cases hbars
      exact .inl ⟨rfl, notAfter_eq_false_iff.2 hdescent⟩
    | cons first before =>
      rw [List.cons_append, List.cons.injEq] at hbars
      obtain ⟨rfl, hbars⟩ := hbars
      -- The second bar is the next of `before`, or the one before the descent.
      have hnext : ∃ more, before ++ [x] = b :: more := by
        cases before with
        | nil =>
          cases hbars
          exact ⟨[], rfl⟩
        | cons second before =>
          cases hbars
          exact ⟨before ++ [x], rfl⟩
      obtain ⟨more, hmore⟩ := hnext
      rw [List.cons_append, hmore, List.isChain_cons_cons, ← hmore] at hchain
      exact .inr ⟨hchain.1, before.length + 1, by simp,
        before, x, y, after, hbars, rfl, hchain.2, hdescent⟩
  · rintro (⟨rfl, hdescent⟩ | ⟨hstep, i, rfl, before, x, y, after, hbars, rfl, hchain, hdescent⟩)
    · exact ⟨[], a, b, bars, rfl, rfl, by simp, notAfter_eq_false_iff.1 hdescent⟩
    · refine ⟨a :: before, x, y, after, by rw [hbars]; rfl, by simp, ?_, hdescent⟩
      cases before with
      | nil =>
        cases hbars
        simpa using hstep
      | cons second before =>
        cases hbars
        exact List.isChain_cons_cons.2 ⟨hstep, hchain⟩

theorem not_firstDescent_nil : ¬FirstDescent [] k := by
  rintro ⟨before, _, _, _, hbars, -⟩
  simp at hbars

theorem not_firstDescent_singleton : ¬FirstDescent [a] k := by
  rintro ⟨before, _, _, _, hbars, -⟩
  have hlength := congrArg List.length hbars
  simp at hlength
  omega

/-! ### Sorted bars -/

/-- The order of the times, with zero for a missing one. Unlike `notAfter` it is total and
transitive on all bars. -/
def byTime (a b : Bar) : Bool := a.time.getD 0 ≤ b.time.getD 0

theorem byTime_trans (a b c : Bar) (hab : a.byTime b = true) (hbc : b.byTime c = true) :
    a.byTime c = true := by
  simp only [byTime, decide_eq_true_eq] at *
  exact Int.le_trans hab hbc

theorem byTime_total (a b : Bar) : (a.byTime b || b.byTime a) = true := by
  simpa [byTime] using Int.le_total (a.time.getD 0) (b.time.getD 0)

theorem notAfter_eq_byTime (ha : a.time ≠ none) (hb : b.time ≠ none) :
    a.notAfter b = a.byTime b := by
  obtain ⟨s, hs⟩ := Option.ne_none_iff_exists'.1 ha
  obtain ⟨t, ht⟩ := Option.ne_none_iff_exists'.1 hb
  simp [notAfter, byTime, hs, ht]

/-- Bars whose times are known are sorted by a total order. -/
theorem inOrder_of_known (h : ∀ b ∈ bars, b.time ≠ none) :
    inOrder bars = bars.mergeSort byTime := by
  have hall : bars.all (fun b => b.time.isSome) = true :=
    List.all_eq_true.2 fun b hb => Option.isSome_iff_ne_none.2 (h b hb)
  have hsort := @List.map_mergeSort _ _ notAfter byTime id bars fun a ha b hb =>
    notAfter_eq_byTime (h a ha) (h b hb)
  rw [inOrder, if_pos hall]
  simpa using hsort

theorem inOrder_of_missing (hb : b ∈ bars) (hmissing : b.time = none) : inOrder bars = bars := by
  refine if_neg fun hall => ?_
  have hknown := List.all_eq_true.1 hall b hb
  simp [hmissing] at hknown

/-- **Bars are neither lost nor made up.** -/
theorem perm_inOrder (bars : List Bar) : (inOrder bars).Perm bars := by
  rw [inOrder]
  split
  · exact List.mergeSort_perm bars notAfter
  · exact .refl bars

theorem mem_inOrder : b ∈ inOrder bars ↔ b ∈ bars := (perm_inOrder bars).mem_iff

/-- **Bars whose times are known do not descend.** -/
theorem pairwise_inOrder (h : ∀ b ∈ bars, b.time ≠ none) :
    (inOrder bars).Pairwise fun a b => a.notAfter b = true := by
  have hsorted := List.pairwise_mergeSort byTime_trans byTime_total bars
  rw [← inOrder_of_known h] at hsorted
  refine hsorted.imp_of_mem fun {a b} ha hb hab => ?_
  rwa [notAfter_eq_byTime (h a (mem_inOrder.1 ha)) (h b (mem_inOrder.1 hb))]

/-- **Bars of the same time keep their order.** -/
theorem filter_inOrder (bars : List Bar) (time : Option Int) :
    (inOrder bars).filter (fun b => b.time = time) = bars.filter fun b => b.time = time := by
  by_cases hknown : ∀ b ∈ bars, b.time ≠ none
  · rw [inOrder_of_known hknown]
    -- These bars are in order already, and sorting keeps what is in order.
    have hsame : (bars.filter fun b => b.time = time).Pairwise fun a b => a.byTime b = true := by
      refine List.pairwise_of_forall_mem_list fun a ha b hb => ?_
      simp only [List.mem_filter, decide_eq_true_eq] at ha hb
      simp [byTime, ha.2, hb.2]
    have hsub := List.sublist_mergeSort byTime_trans byTime_total hsame List.filter_sublist
    have hfilter := hsub.filter fun b : Bar => b.time = time
    rw [List.filter_filter] at hfilter
    simp only [Bool.and_self] at hfilter
    exact (hfilter.eq_of_length ((List.mergeSort_perm bars byTime).filter _).length_eq.symm).symm
  · simp only [not_forall, not_not] at hknown
    obtain ⟨b, hb, hmissing⟩ := hknown
    rw [inOrder_of_missing hb hmissing]

theorem inOrder_inOrder (bars : List Bar) : inOrder (inOrder bars) = inOrder bars := by
  by_cases hknown : ∀ b ∈ bars, b.time ≠ none
  · have hall : (inOrder bars).all (fun b => b.time.isSome) = true :=
      List.all_eq_true.2 fun b hb => Option.isSome_iff_ne_none.2 (hknown b (mem_inOrder.1 hb))
    rw [inOrder, if_pos hall, List.mergeSort_of_pairwise (pairwise_inOrder hknown)]
  · simp only [not_forall, not_not] at hknown
    obtain ⟨b, hb, hmissing⟩ := hknown
    rw [inOrder_of_missing hb hmissing, inOrder_of_missing hb hmissing]

/-- Where bars descend that were put in order, a time is missing and the order is as it was. -/
theorem missing_of_firstDescent (h : FirstDescent (inOrder bars) k) :
    inOrder bars = bars ∧ ∃ b ∈ bars, b.time = none := by
  by_cases hknown : ∀ b ∈ bars, b.time ≠ none
  · obtain ⟨before, a, b, after, hbars, -, -, hdescent⟩ := h
    have hpairwise := pairwise_inOrder hknown
    rw [hbars, List.pairwise_append, List.pairwise_cons] at hpairwise
    have hstep := hpairwise.2.1.1 b List.mem_cons_self
    rw [notAfter_eq_false_iff.2 hdescent] at hstep
    cases hstep
  · simp only [not_forall, not_not] at hknown
    obtain ⟨b, hb, hmissing⟩ := hknown
    exact ⟨inOrder_of_missing hb hmissing, b, hb, hmissing⟩

end Bar

end StrategyGraph
