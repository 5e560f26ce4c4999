import StrategyGraph.Proofs.Fault
import StrategyGraph.Proofs.Price.Ordered
import StrategyGraph.Simulation.Bars

/-!
# Normalized price lists

A price list is normalized by reading its entries, of which some may be bars already, leaving out
those that are no bars, and sorting the rest by time if all times are known.

* `Bar.ofEntries` : what a list of entries is normalized to; `Bar.normalize_eq_ofEntries` says that
  this is how payloads are normalized;
* `Bar.ofEntries_sorts` : **it is a stable sort that loses no bar and changes nothing the second
  time.**
-/

namespace StrategyGraph

namespace Bar

open Simulation (readEntry)

/-- Reads the entries of a list, leaves out those that are no bars and puts the others in order. -/
def ofEntries (entries : List (Json ⊕ Bar)) : Except Fault (List Bar) := do
  let found ← entries.mapM readEntry
  pure (inOrder (found.filterMap id))

variable {entries : List (Json ⊕ Bar)} {bars : List Bar}

theorem mapM_readEntry_inl (items : List Json) :
    (items.map Sum.inl : List (Json ⊕ Bar)).mapM readEntry = items.mapM read := by
  rw [List.mapM_map]
  rfl

theorem mapM_readEntry_inr (bars : List Bar) :
    (bars.map Sum.inr : List (Json ⊕ Bar)).mapM readEntry = .ok (bars.map some) := by
  induction bars with
  | nil => rfl
  | cons bar bars ih => exact mapM_cons_eq_ok.2 ⟨some bar, _, rfl, ih, rfl⟩

theorem normalize_eq_ofEntries {raw : Json} (h : (Supply.payload raw).entries = .ok entries) :
    normalize raw = ofEntries entries := by
  obtain ⟨items, hitems, rfl⟩ := map_eq_ok.1 h
  rw [normalize, readAll, hitems, ofEntries, mapM_readEntry_inl]
  change (items.mapM read >>= _).map inOrder = _
  cases items.mapM read with
  | error fault => rfl
  | ok found => rfl

/-- Bars in order are normalized to themselves. -/
theorem ofEntries_inOrder (bars : List Bar) :
    ofEntries ((inOrder bars).map .inr) = .ok (inOrder bars) := by
  have hsome : ((inOrder bars).map some).filterMap id = inOrder bars := by simp
  rw [ofEntries, mapM_readEntry_inr, ok_bind, hsome, inOrder_inOrder]
  rfl

/-- **Normalizing is a stable sort that loses no bar.** The result has the bars among the entries,
each as often as it was listed. If all their times are known it ascends, and bars of the same time
stand as they were listed; if a time is missing all bars do. To normalize the result changes
nothing. -/
theorem ofEntries_sorts (h : ofEntries entries = .ok bars) :
    ∃ found, entries.mapM readEntry = .ok found ∧ bars.Perm (found.filterMap id) ∧
      ((∀ b ∈ found.filterMap id, b.time ≠ none) →
        (bars.Pairwise fun a b => ∃ s t, a.time = some s ∧ b.time = some t ∧ s ≤ t) ∧
        ∀ t : Int, bars.filter (fun b => b.time = some t) =
          (found.filterMap id).filter fun b => b.time = some t) ∧
      ((∃ b ∈ found.filterMap id, b.time = none) → bars = found.filterMap id) ∧
      ofEntries (bars.map .inr) = .ok bars ∧
      ∀ raw, (Supply.payload raw).entries = .ok entries → normalize raw = .ok bars := by
  obtain ⟨found, hfound, hbars⟩ := bind_eq_ok.1 h
  obtain rfl : inOrder (found.filterMap id) = bars := Except.ok.inj hbars
  refine ⟨found, hfound, perm_inOrder _, fun hknown => ⟨?_, fun t => ?_⟩, ?_,
    ofEntries_inOrder _, fun raw hraw => (normalize_eq_ofEntries hraw).trans h⟩
  · refine (pairwise_inOrder hknown).imp_of_mem fun {a b} ha hb hab => ?_
    obtain ⟨s, hs⟩ := Option.ne_none_iff_exists'.1 (hknown a (mem_inOrder.1 ha))
    obtain ⟨t, ht⟩ := Option.ne_none_iff_exists'.1 (hknown b (mem_inOrder.1 hb))
    rw [notAfter, hs, ht] at hab
    exact ⟨s, t, hs, ht, of_decide_eq_true hab⟩
  · exact filter_inOrder _ (some t)
  · rintro ⟨b, hb, hmissing⟩
    exact inOrder_of_missing hb hmissing

/-- Two bars of the same time, a later one first, and an entry that is no bar. -/
def shuffled : List (Json ⊕ Bar) :=
  [.inl (.array [.ofInt 2000, .ofInt 20]), .inl (.object []), .inl (.array [.ofInt 1000, .ofInt 10]),
    .inr { time := some 1000000, price := 11.0 }]

theorem ofEntries_sorts_shuffled : ∃ bars found, ofEntries shuffled = .ok bars ∧
    shuffled.mapM readEntry = .ok found ∧ (found.filterMap id).length = 3 ∧
    bars.Perm (found.filterMap id) ∧
    (bars.filter fun b => b.time = some 1000000) =
      (found.filterMap id).filter (fun b => b.time = some 1000000) ∧
    ofEntries (bars.map .inr) = .ok bars := by
  obtain ⟨found, hfound, hp⟩ := exists_ok_of_any (x := shuffled.mapM readEntry)
    (p := fun found => (found.filterMap id).all (fun b => b.time.isSome) &&
      (found.filterMap id).length == 3) (by decide +kernel)
  simp only [Bool.and_eq_true, List.all_eq_true, beq_iff_eq] at hp
  have h : ofEntries shuffled = .ok (inOrder (found.filterMap id)) :=
    bind_eq_ok.2 ⟨found, hfound, rfl⟩
  obtain ⟨found', hfound', hperm, hknown, -, hagain, -⟩ := ofEntries_sorts h
  obtain rfl : found = found' := Except.ok.inj (hfound.symm.trans hfound')
  have hsorted := hknown fun b hb => Option.isSome_iff_ne_none.1 (hp.1 b hb)
  exact ⟨_, found, h, hfound, hp.2, hperm, hsorted.2 1000000, hagain⟩

end Bar

end StrategyGraph
