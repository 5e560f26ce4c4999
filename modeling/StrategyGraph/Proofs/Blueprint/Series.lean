import StrategyGraph.Proofs.Blueprint.Window
import StrategyGraph.Proofs.Indicator.Total
import StrategyGraph.Walk.Context

/-!
# The series of a blueprint

The series of producers whose windows hold a bar can be computed over almost all bars.

* `Producer.Fits` : the series can be computed;
* `Blueprint.succeeds_series`, `Blueprint.series_eq_error` : all series can be computed if each one
  can, and the only fault is that a square is too large;
* `Blueprint.names_series`, `Blueprint.length_of_mem_series` : their names and their lengths.
-/

namespace StrategyGraph

/-- If the producer makes a Bollinger band, then it can be computed over the closing prices. -/
def Producer.Fits (p : Producer) (closes : List Float) : Prop :=
  ∀ kind window, p.source = .indicator kind window →
    kind = .bollingerUpper ∨ kind = .bollingerLower → ∀ i < closes.length,
      Indicator.BandFits (Indicator.trailing window.toNat (closes.take (i + 1)))

theorem Producer.succeeds_series {p : Producer} {bars : List Bar} (hp : p.Windowed) :
    Succeeds (p.series bars) ↔ p.Fits (bars.map Bar.price) := by
  rw [series, Fits]
  cases hsource : p.source with
  | price format => simp
  | indicator kind window =>
    have hwindow : ¬window < 1 := Int.not_lt.2 (hp kind window hsource)
    change Succeeds (Indicator.checkWindow window >>= _) ↔ _
    rw [Indicator.checkWindow, if_neg hwindow]
    change Succeeds (Indicator.ofBars kind window.toNat bars) ↔ _
    rw [Indicator.succeeds_ofBars]
    simp

theorem Producer.length_series {p : Producer} {bars : List Bar} {series : Series Float}
    (h : p.series bars = .ok series) : series.length = bars.length := by
  rw [Producer.series] at h
  split at h
  · cases h
    exact List.length_map _
  · obtain ⟨window, -, h⟩ := bind_eq_ok.1 h
    exact Indicator.length_ofBars h

theorem Producer.series_eq_error {p : Producer} {bars : List Bar} {fault : Fault} (hp : p.Windowed)
    (h : p.series bars = .error fault) : fault = .squareTooLarge := by
  rw [Producer.series] at h
  split at h
  · cases h
  · next kind window hsource =>
    have hwindow : ¬window < 1 := Int.not_lt.2 (hp kind window hsource)
    rw [Indicator.checkWindow, if_neg hwindow] at h
    exact Indicator.ofCloses_eq_error h

namespace Blueprint

variable {b : Blueprint} {bars : List Bar} {series : List (String × Series Float)}

theorem succeeds_series (hb : ∀ p ∈ b.producers, p.Windowed) :
    Succeeds (b.series bars) ↔ ∀ p ∈ b.producers, p.Fits (bars.map Bar.price) := by
  rw [Blueprint.series, succeeds_mapM]
  refine forall₂_congr fun p hp => ?_
  rw [succeeds_map, Producer.succeeds_series (hb p hp)]

theorem series_eq_error {fault : Fault} (hb : ∀ p ∈ b.producers, p.Windowed)
    (h : b.series bars = .error fault) : fault = .squareTooLarge := by
  obtain ⟨p, hp, hfault⟩ := exists_of_mapM_error h
  exact Producer.series_eq_error (hb p hp) (map_eq_error.1 hfault)

theorem names_series (h : b.series bars = .ok series) :
    series.map Prod.fst = b.producers.map Producer.outputKey := by
  refine map_eq_of_mapM (fun p s hs => ?_) h
  obtain ⟨values, -, rfl⟩ := map_eq_ok.1 hs
  rfl

theorem length_of_mem_series (h : b.series bars = .ok series) {s : String × Series Float}
    (hs : s ∈ series) : s.2.length = bars.length := by
  have hlengths : series.map (fun s => s.2.length) = b.producers.map fun _ => bars.length := by
    refine map_eq_of_mapM (fun p s hs => ?_) h
    obtain ⟨values, hvalues, rfl⟩ := map_eq_ok.1 hs
    exact Producer.length_series hvalues
  have hmem : s.2.length ∈ series.map fun s => s.2.length := List.mem_map_of_mem hs
  rw [hlengths] at hmem
  obtain ⟨p, -, hp⟩ := List.mem_map.1 hmem
  exact hp.symm

end Blueprint

end StrategyGraph
