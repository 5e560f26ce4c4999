import StrategyGraph.Proofs.Fault
import StrategyGraph.Proofs.Price.Ordered
import StrategyGraph.Simulation.Bars

/-!
# Bars that a simulation accepts

A simulation compares each bar with the one before it, if both times are known. So the bars that it
accepts ascend where all times are known; a bar without a time is compared with nothing, and the
bars on both sides of it are not compared with each other.

* `Bar.AscendsBetweenGaps` : a bar is earlier than one before it only if a time is missing between
  the two; this is what comparing neighbours comes to (`Bar.isChain_iff_ascendsBetweenGaps`);
* `Simulation.readBars_accepts` : **which entries are accepted, and as which bars**;
* `Simulation.descent_accepted` : three entries that are accepted and descend.
-/

namespace StrategyGraph

namespace Bar

variable {a b : Bar} {bars : List Bar} {i j : Nat}

/-- If a bar is earlier than one before it, then a bar without a time stands between the two. -/
def AscendsBetweenGaps (bars : List Bar) : Prop :=
  ∀ i j, i < j → ∀ (a b : Bar) (s t : Int), bars[i]? = some a → bars[j]? = some b →
    a.time = some s → b.time = some t →
      s ≤ t ∨ ∃ (k : Nat) (c : Bar), i < k ∧ k < j ∧ bars[k]? = some c ∧ c.time = none

theorem le_of_isChain (h : bars.IsChain fun a b => a.notAfter b = true) {s : Int}
    (ha : bars[i]? = some a) (hs : a.time = some s) (hij : i ≤ j)
    (hknown : ∀ k c, i < k → k ≤ j → bars[k]? = some c → c.time ≠ none)
    (hb : bars[j]? = some b) : ∃ t, b.time = some t ∧ s ≤ t := by
  induction j, hij using Nat.le_induction generalizing b with
  | base =>
    cases ha.symm.trans hb
    exact ⟨s, hs, Int.le_refl s⟩
  | succ j hij ih =>
    obtain ⟨hlength, rfl⟩ := List.getElem?_eq_some_iff.1 hb
    obtain ⟨t, ht, hst⟩ := ih (fun k c hik hkj => hknown k c hik (Nat.le_succ_of_le hkj))
      (List.getElem?_eq_getElem (Nat.lt_of_succ_lt hlength))
    obtain ⟨u, hu⟩ := Option.ne_none_iff_exists'.1
      (hknown (j + 1) _ (Nat.lt_succ_of_le hij) (Nat.le_refl _) hb)
    have hstep := List.isChain_iff_getElem.1 h j hlength
    simp only [notAfter, ht, hu, decide_eq_true_eq] at hstep
    exact ⟨u, hu, Int.le_trans hst hstep⟩

/-- Comparing neighbours finds all descents but those across a missing time. -/
theorem isChain_iff_ascendsBetweenGaps :
    bars.IsChain (fun a b => a.notAfter b = true) ↔ AscendsBetweenGaps bars := by
  constructor
  · intro h i j hij a b s t ha hb hs ht
    by_cases hgap : ∃ (k : Nat) (c : Bar), i < k ∧ k < j ∧ bars[k]? = some c ∧ c.time = none
    · exact .inr hgap
    · have hknown : ∀ k c, i < k → k ≤ j → bars[k]? = some c → c.time ≠ none := by
        intro k c hik hkj hc hnone
        rcases Nat.lt_or_eq_of_le hkj with hkj | rfl
        · exact hgap ⟨k, c, hik, hkj, hc, hnone⟩
        · cases hc.symm.trans hb
          cases ht.symm.trans hnone
      obtain ⟨u, hu, hsu⟩ := le_of_isChain h ha hs (Nat.le_of_lt hij) hknown hb
      cases ht.symm.trans hu
      exact .inl hsu
  · intro h
    refine List.isChain_iff_getElem.2 fun i hi => ?_
    rw [← Bool.not_eq_false, notAfter_eq_false_iff]
    rintro ⟨s, t, hs, ht, hts⟩
    rcases h i (i + 1) (Nat.lt_succ_self i) _ _ s t (List.getElem?_eq_getElem _)
      (List.getElem?_eq_getElem hi) hs ht with hst | ⟨k, -, hik, hki, -⟩
    · omega
    · omega

end Bar

namespace Simulation

open Bar (AscendsBetweenGaps)

variable {entry : Json ⊕ Bar} {entries : List (Json ⊕ Bar)} {bar : Bar} {bars : List Bar}
  {index : Nat} {previous found : Option Bar}

theorem checkBar_eq_ok : checkBar index previous found = .ok bar ↔
    found = some bar ∧ ¬bar.price ≤ 0.0 ∧ (previous.all fun p => p.notAfter bar) = true := by
  cases found with
  | none => simp [checkBar]
  | some next =>
    rw [checkBar, Option.some.injEq]
    constructor
    · intro h
      split at h
      · cases h
      · next hprice =>
        split at h
        · next hstep =>
          cases h
          exact ⟨rfl, hprice, hstep⟩
        · cases h
    · rintro ⟨rfl, hprice, hstep⟩
      rw [if_neg hprice, if_pos hstep]

theorem isChain_cons_iff :
    (previous.toList ++ bar :: bars).IsChain (fun a b => a.notAfter b = true) ↔
    (previous.all fun p => p.notAfter bar) = true ∧
      ((some bar).toList ++ bars).IsChain fun a b => a.notAfter b = true := by
  cases previous with
  | none => simp
  | some p => simp

/-- Entries are accepted one after the other. -/
theorem readBarsFrom_accepts : (readBarsFrom index previous entries).run = .ok (.ok bars) ↔
    List.Forall₂ (fun entry bar => readEntry entry = .ok (some bar)) entries bars ∧
      (∀ b ∈ bars, ¬b.price ≤ 0.0) ∧
      (previous.toList ++ bars).IsChain fun a b => a.notAfter b = true := by
  induction entries generalizing index previous bars with
  | nil =>
    rw [List.forall₂_nil_left_iff]
    constructor
    · intro h
      cases h
      refine ⟨rfl, by simp, ?_⟩
      cases previous <;> simp
    · rintro ⟨rfl, -, -⟩
      rfl
  | cons entry entries ih =>
    rw [readBarsFrom, run_bind_eq_ok, List.forall₂_cons_left_iff]
    constructor
    · rintro ⟨bar, hbar, h⟩
      obtain ⟨found, hfound, hcheck⟩ := map_eq_ok.1 hbar
      obtain ⟨rfl, hprice, hstep⟩ := checkBar_eq_ok.1 hcheck
      obtain ⟨rest, hrest, h⟩ := run_bind_eq_ok.1 h
      obtain rfl : bar :: rest = bars := Except.ok.inj (Except.ok.inj h)
      obtain ⟨hentries, hprices, hchain⟩ := ih.1 hrest
      exact ⟨⟨bar, rest, hfound, hentries, rfl⟩, List.forall_mem_cons.2 ⟨hprice, hprices⟩,
        isChain_cons_iff.2 ⟨hstep, hchain⟩⟩
    · rintro ⟨⟨bar, rest, hfound, hentries, rfl⟩, hprices, hchain⟩
      obtain ⟨hprice, hprices⟩ := List.forall_mem_cons.1 hprices
      obtain ⟨hstep, hchain⟩ := isChain_cons_iff.1 hchain
      refine ⟨bar, map_eq_ok.2 ⟨some bar, hfound, checkBar_eq_ok.2 ⟨rfl, hprice, hstep⟩⟩, ?_⟩
      exact run_bind_eq_ok.2 ⟨rest, ih.2 ⟨hentries, hprices, hchain⟩, rfl⟩

/-- **Which entries are accepted, and as which bars**: each entry is a bar, prices are positive, and
bars ascend where no time is missing between them. -/
theorem readBars_accepts : (readBars entries).run = .ok (.ok bars) ↔
    List.Forall₂ (fun entry bar => readEntry entry = .ok (some bar)) entries bars ∧
      (∀ b ∈ bars, ¬b.price ≤ 0.0) ∧ AscendsBetweenGaps bars := by
  rw [readBars, readBarsFrom_accepts, ← Bar.isChain_iff_ascendsBetweenGaps]
  rfl

/-- Bars of which the last is earlier than the first, and the one between them has no time. -/
def gappedPrices : List Json :=
  [.array [.ofInt 1700000060000, .ofFloat 10.0], .ofFloat 11.0,
   .array [.ofInt 1700000000000, .ofFloat 12.0]]

/-- **Accepted bars need not ascend.** -/
theorem descent_accepted : ∃ (bars : List Bar) (first last : Bar) (s t : Int),
    (readBars (gappedPrices.map .inl)).run = .ok (.ok bars) ∧
      bars[0]? = some first ∧ bars[2]? = some last ∧
      first.time = some s ∧ last.time = some t ∧ t < s :=
  ⟨_, _, _, _, _, rfl, rfl, rfl, rfl, rfl, by decide⟩

end Simulation

end StrategyGraph
