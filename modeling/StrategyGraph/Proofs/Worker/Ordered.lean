import StrategyGraph.CommandLine.Execute
import StrategyGraph.Proofs.Simulation.Ordered
import StrategyGraph.Proofs.Simulation.Total
import StrategyGraph.Proofs.Worker.Protocol

/-!
# Requests and commands with bars out of order

Requests and commands put their bars in order before they simulate. A missing time prevents it, and
then the simulation may refuse the bars for their order.

* `CommandLine.outcome_execute` : what a command comes to;
* `order_refused` : **which bars are refused for their order although they were put in order**, and
  which requests and commands;
* `mixed_times_refused` : such a request.
-/

namespace StrategyGraph

open Bar (FirstDescent)
open Simulation (OrderRefused readBars)

namespace CommandLine

/-- The options of the simulation that arguments ask for. -/
def Arguments.options (a : Arguments) : Simulation.Options where
  feePercent := amountOption a.feePercent
  initialCapital := amountOption a.initialCapital

/-- What a command leaves behind that comes to a result. -/
def Outcome.ofResult (a : Arguments) (bars : Nat) (result : Simulation.Result) : Outcome where
  code := if result.success then 0 else 1
  output := if a.json then result.toJson.indented ++ "\n" else report bars result

theorem outcome_execute (settings : Settings) (a : Arguments) (files : String → Option String)
    (entropy : Int) (answers : Nat → Bool) :
    ((execute settings a files entropy).run answers).outcome = (do
      let path ← needed .graph a.graph
      let graph ← readFile path (files path)
      let bars ← barsOf a files entropy
      let fields ← graph.attributes
      let blueprint ← compile settings (.payload (fields.get "nodes"))
        (.payload (fields.get "edges")) (fields.get "parameters")
      let result ← ((Simulation.run settings (some blueprint) (.ready bars) a.options :
        Routine Empty Simulation.Result).run answers).outcome
      pure (.ofResult a bars.length result)) := by
  unfold execute Routine.run
  rw [(Routine.Quiet.lift _).outcome_bind]
  congr 1
  funext path
  rw [(Routine.Quiet.lift _).outcome_bind]
  congr 1
  funext graph
  rw [(Routine.Quiet.lift _).outcome_bind]
  congr 1
  funext bars
  rw [(Routine.Quiet.lift _).outcome_bind]
  congr 1
  funext fields
  rw [(Routine.Quiet.lift _).outcome_bind]
  congr 1
  funext blueprint
  rw [Routine.outcome_sayAll_bind, Routine.outcome_bind]
  rfl

end CommandLine

open CommandLine in
/-- **Which bars are refused for their order although they were put in order.** It is those that
descend, up to where the prices are positive. They do so only if a time is missing, and then they
stand in the order in which they were listed. A request or a command with such bars fails so if fee
and capital are usable. -/
theorem order_refused {raw : Json} {bars : List Bar} (hbars : Bar.normalize raw = .ok bars) :
    (∀ k, (readBars (bars.map .inr)).run = .ok (.error (.unordered k)) ↔
      FirstDescent bars k ∧ ∀ b ∈ bars.take (k + 1), ¬b.price ≤ 0.0) ∧
    (∀ k, FirstDescent bars k → Bar.readAll raw = .ok bars ∧ ∃ b ∈ bars, b.time = none) ∧
    (∀ settings answers (fields : Fields) result, fields.get "prices" = raw →
      Worker.ComesTo settings answers (.object fields) result →
      ∀ k, result.failure = some (.unordered k) ↔
        OrderRefused (.ofRequest settings fields) bars k) ∧
    ∀ settings (a : Arguments) files entropy answers path outcome, a.prices = some path →
      readFile path (files path) = .ok raw →
      ((execute settings a files entropy).run answers).outcome = .ok outcome →
      ∃ result, outcome = .ofResult a bars.length result ∧
        ∀ k, result.failure = some (.unordered k) ↔ OrderRefused a.options bars k := by
  refine ⟨fun _ => Simulation.readBars_unordered, fun k hdescent => ?_, ?_, ?_⟩
  · obtain ⟨read, hread, rfl⟩ := map_eq_ok.1 hbars
    obtain ⟨hsame, b, hb, hmissing⟩ := Bar.missing_of_firstDescent hdescent
    rw [hsame]
    exact ⟨hread, b, hb, hmissing⟩
  · rintro settings answers fields result hprices ⟨-, -, -, -, hbars', -, hresult⟩ k
    rw [hprices] at hbars'
    cases hbars.symm.trans hbars'
    exact Simulation.run_unordered hresult
  · intro settings a files entropy answers path outcome hpath hfile houtcome
    have hbarsOf : barsOf a files entropy = .ok bars := by
      rw [barsOf, hpath]
      exact bind_eq_ok.2 ⟨raw, hfile, hbars⟩
    rw [outcome_execute] at houtcome
    obtain ⟨_, -, houtcome⟩ := bind_eq_ok.1 houtcome
    obtain ⟨graph, -, houtcome⟩ := bind_eq_ok.1 houtcome
    rw [hbarsOf, ok_bind] at houtcome
    obtain ⟨fields, -, houtcome⟩ := bind_eq_ok.1 houtcome
    obtain ⟨blueprint, -, houtcome⟩ := bind_eq_ok.1 houtcome
    obtain ⟨result, hresult, houtcome⟩ := bind_eq_ok.1 houtcome
    cases houtcome
    exact ⟨result, rfl, fun k => Simulation.run_unordered hresult⟩

/-- Two bars, the later one first. -/
def swappedPrices : Json :=
  .array [.array [.ofInt 2000000, .ofInt 20], .array [.ofInt 1000000, .ofInt 21]]

/-- Bars whose times are known are not refused. -/
theorem order_refused_swapped : ∃ bars, Bar.normalize swappedPrices = .ok bars ∧
    ∀ k, (readBars (bars.map .inr)).run ≠ .ok (.error (.unordered k)) := by
  obtain ⟨read, hread, hknown⟩ := exists_ok_of_any (x := Bar.readAll swappedPrices)
    (p := fun bars => bars.all fun b => b.time.isSome) (by decide +kernel)
  have h : Bar.normalize swappedPrices = .ok (Bar.inOrder read) := map_eq_ok.2 ⟨read, hread, rfl⟩
  obtain ⟨hrefused, hmissing, -, -⟩ := order_refused h
  refine ⟨_, h, fun k hk => ?_⟩
  obtain ⟨-, b, hb, hnone⟩ := hmissing k ((hrefused k).1 hk).1
  have hsome := List.all_eq_true.1 hknown b (Bar.mem_inOrder.1 hb)
  simp [hnone] at hsome

/-- The same bars, and one without a time. -/
def mixedPrices : Json :=
  .array [.array [.ofInt 2000000, .ofInt 20], .array [.ofInt 1000000, .ofInt 21], .ofInt 22]

/-- A request with these prices. -/
def mixedRequest : Json :=
  .object [("nodes", .array Simulation.dipNodes), ("edges", .array Simulation.dipEdges),
    ("prices", mixedPrices)]

/-- Where an outcome is a refusal for the order of the bars. -/
def refusedAt? {α : Type} : Except Fault (Except Simulation.Failure α) → Option Nat
  | .ok (.error (.unordered place)) => some place
  | _ => none

theorem refusedAt?_eq_some {α : Type} {outcome : Except Fault (Except Simulation.Failure α)}
    {k : Nat} (h : refusedAt? outcome = some k) : outcome = .ok (.error (.unordered k)) := by
  unfold refusedAt? at h
  split at h
  · rw [Option.some.inj h]
  · cases h

/-- A time is missing, so the bars stay as they are listed and are refused for it. -/
theorem mixed_times_refused : ∃ bars result, Bar.normalize mixedPrices = .ok bars ∧
    (∀ b ∈ bars, ¬b.price ≤ 0.0) ∧
    (readBars (bars.map .inr)).run = .ok (.error (.unordered 1)) ∧
    Worker.ComesTo {} Routine.never mixedRequest result ∧
    result.failure = some (.unordered 1) := by
  obtain ⟨bars, hread, hp⟩ := exists_ok_of_any (x := Bar.readAll mixedPrices)
    (p := fun bars => bars.any (fun b => b.time.isNone) && bars.length == 3 &&
      bars.all (fun b => !decide (b.price ≤ 0.0)) &&
      refusedAt? (readBars (bars.map .inr)).run == some 1) (by decide +kernel)
  simp only [Bool.and_eq_true, List.any_eq_true, Option.isNone_iff_eq_none] at hp
  obtain ⟨⟨⟨⟨b, hb, hmissing⟩, hlength⟩, hprices⟩, hrefused⟩ := hp
  have hbars : Bar.normalize mixedPrices = .ok bars :=
    map_eq_ok.2 ⟨bars, hread, Bar.inOrder_of_missing hb hmissing⟩
  have hunordered : (readBars (bars.map .inr)).run = .ok (.error (.unordered 1)) :=
    refusedAt?_eq_some (eq_of_beq hrefused)
  obtain ⟨hdescent, hpositive⟩ := Simulation.readBars_unordered.1 hunordered
  obtain ⟨blueprint, hblueprint, -⟩ := exists_ok_of_any
    (x := compile {} (.payload (.array Simulation.dipNodes)) (.payload (.array Simulation.dipEdges))
      .null)
    (p := fun _ => true) (by decide)
  have hoptions : OrderRefused (.ofRequest {} []) bars 1 := ⟨⟨_, rfl⟩, hdescent, hpositive⟩
  obtain ⟨result, hresult, hfailure⟩ := Simulation.run_of_orderRefused hoptions {}
    { blueprint with warnings := blueprint.warnings ++ Worker.droppedWarning 3 bars.length }
    Routine.never
  refine ⟨bars, result, hbars, fun b hb => ?_, hunordered, ?_, hfailure⟩
  · simpa using List.all_eq_true.1 hprices b hb
  · exact .intro rfl rfl rfl hblueprint hbars rfl hresult

end StrategyGraph
