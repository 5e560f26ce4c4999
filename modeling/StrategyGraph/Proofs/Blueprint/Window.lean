import StrategyGraph.Proofs.Blueprint.Reading

/-!
# Windows of compiled indicators

The windows of the indicators of a blueprint hold at least one bar, as the default window does:
`compile_windowed`. So a simulation can compute them.
-/

namespace StrategyGraph

variable {settings : Settings} {g : Graph} {s : Snapshot} {n : Node}

namespace Producer

variable {j : Json} {js : List Json} {window : Int} {p : Producer} {warnings : List Warning}

/-- The window of an indicator holds a bar. -/
def Windowed (p : Producer) : Prop := ∀ kind window, p.source = .indicator kind window → 1 ≤ window

theorem one_le_of_asWindow (h : asWindow j = .ok (some window)) : 1 ≤ window := by
  rw [asWindow.eq_def] at h
  split at h
  · cases h
  · cases h
  · split at h
    · cases h
    · cases h
    · split at h
      · cases h
      · obtain ⟨n, -, h⟩ := map_eq_ok.1 h
        split at h
        · next hn =>
          cases h
          exact hn
        · cases h

theorem one_le_of_firstWindow (h : firstWindow js = .ok (some window)) : 1 ≤ window := by
  induction js with
  | nil => cases h
  | cons j js ih =>
    obtain ⟨r, hr, h⟩ := bind_eq_ok.1 h
    cases r with
    | none => exact ih h
    | some n =>
      cases h
      exact one_le_of_asWindow hr

variable (hlookback : 1 ≤ settings.lookback)
include hlookback

theorem one_le_of_window (h : Producer.window settings s n = .ok (window, warnings)) :
    1 ≤ window := by
  obtain ⟨candidates, -, h⟩ := bind_eq_ok.1 h
  obtain ⟨found, hfound, h⟩ := bind_eq_ok.1 h
  cases found with
  | none =>
    cases h
    exact hlookback
  | some w =>
    cases h
    exact one_le_of_firstWindow hfound

theorem windowed_read (h : read settings g s n = .ok (p, warnings)) : p.Windowed := by
  rw [read] at h
  split at h
  · obtain ⟨⟨key, keyWarnings⟩, -, h⟩ := bind_eq_ok.1 h
    cases h
    rintro kind window ⟨⟩
  · obtain ⟨⟨key, keyWarnings⟩, -, h⟩ := bind_eq_ok.1 h
    obtain ⟨⟨w, windowWarnings⟩, hw, h⟩ := bind_eq_ok.1 h
    cases h
    rintro kind window ⟨⟩
    exact one_le_of_window hlookback hw

theorem windowed_readNodes {taken : List String} {nodes : List Node} {producers : List Producer}
    (h : readNodes settings g s taken nodes = .ok (producers, warnings)) :
    ∀ p ∈ producers, p.Windowed := by
  induction nodes generalizing taken producers warnings with
  | nil =>
    cases h
    exact fun _ hp => absurd hp List.not_mem_nil
  | cons n ns ih =>
    rw [readNodes] at h
    split at h
    · exact ih h
    · obtain ⟨⟨p, pWarnings⟩, hp, h⟩ := bind_eq_ok.1 h
      dsimp only at h
      split at h
      · obtain ⟨⟨ps, rest⟩, hps, h⟩ := bind_eq_ok.1 h
        cases h
        exact ih hps
      · obtain ⟨⟨ps, rest⟩, hps, h⟩ := bind_eq_ok.1 h
        cases h
        exact List.forall_mem_cons.2 ⟨windowed_read hlookback hp, ih hps⟩

end Producer

/-- **Compiled windows hold at least one bar.** -/
theorem compile_windowed {nodes : Supply Node} {edges : Supply Edge} {parameters : Json}
    {b : Blueprint} (hlookback : 1 ≤ settings.lookback)
    (h : compile settings nodes edges parameters = .ok b) : ∀ p ∈ b.producers, p.Windowed := by
  rcases compile_cases h with ⟨_, _, _, _, _, _, rfl⟩ | ⟨_, _, _, _, _, _, _, _, _, _, _, hgraph⟩
  · exact fun _ hp => absurd hp List.not_mem_nil
  · obtain ⟨snapshot, -, hgraph⟩ := bind_eq_ok.1 hgraph
    obtain ⟨⟨producers, producerWarnings⟩, hproducers, hgraph⟩ := bind_eq_ok.1 hgraph
    obtain ⟨⟨conditions, conditionWarnings⟩, -, hgraph⟩ := bind_eq_ok.1 hgraph
    cases hgraph
    exact Producer.windowed_readNodes hlookback hproducers

end StrategyGraph
