import StrategyGraph.Proofs.Price.Ordered
import StrategyGraph.Proofs.Simulation.Stopped

/-!
# Simulations of bars out of order

A simulation refuses bars of which one is earlier than the one before it. Bars that were put in order
are refused if a time is missing among times that descend, and only then.

* `readBars_unordered` : which bars are refused for their order;
* `run_unordered` : which simulations are.
-/

namespace StrategyGraph.Simulation

open Bar (FirstDescent)

variable {bars : List Bar} {k : Nat}

/-! ### Reading bars -/

theorem readBarsFrom_cons_unordered {index : Nat} {previous : Option Bar} {bar : Bar} :
    (readBarsFrom index previous ((bar :: bars).map .inr)).run = .ok (.error (.unordered k)) ↔
      ¬bar.price ≤ 0.0 ∧
        ((previous.all fun p => p.notAfter bar) = false ∧ k = index ∨
          (previous.all fun p => p.notAfter bar) = true ∧
            (readBarsFrom (index + 1) (some bar) (bars.map .inr)).run =
              .ok (.error (.unordered k))) := by
  have hrest : ∀ next : Bar, ((do
      let bars ← readBarsFrom (index + 1) (some next) (bars.map .inr)
      pure (next :: bars) : ExceptT Failure (Except Fault) (List Bar)).run =
        .ok (.error (.unordered k)) ↔
      (readBarsFrom (index + 1) (some next) (bars.map .inr)).run = .ok (.error (.unordered k))) := by
    intro next
    rw [run_bind_eq_error]
    refine or_iff_left ?_
    rintro ⟨_, -, h⟩
    cases h
  have hcheck : (ExceptT.mk ((readEntry (.inr bar)).map (checkBar index previous)) :
      ExceptT Failure (Except Fault) Bar).run = .ok (checkBar index previous (some bar)) := rfl
  rw [List.map_cons, readBarsFrom, run_bind_eq_error, hcheck, checkBar]
  by_cases hprice : bar.price ≤ 0.0
  · simp [hprice]
  · cases hstep : (previous.all fun p => p.notAfter bar) with
    | false => simp [hprice, eq_comm]
    | true =>
      simp only [hprice, if_false, if_true, Except.ok.injEq, reduceCtorEq, exists_eq_left', hrest,
        false_and, false_or, not_false_eq_true, true_and, Bool.true_eq_false]

theorem readBarsFrom_unordered {index : Nat} {a : Bar} :
    (readBarsFrom index (some a) (bars.map .inr)).run = .ok (.error (.unordered k)) ↔
      ∃ i, k + 1 = index + i ∧ FirstDescent (a :: bars) i ∧ ∀ b ∈ bars.take i, ¬b.price ≤ 0.0 := by
  induction bars generalizing index a with
  | nil =>
    refine iff_of_false (fun h => by cases h) ?_
    rintro ⟨i, -, hdescent, -⟩
    exact Bar.not_firstDescent_singleton hdescent
  | cons b bars ih =>
    rw [readBarsFrom_cons_unordered, ih]
    simp only [Option.all_some]
    constructor
    · rintro ⟨hprice, ⟨hdescent, rfl⟩ | ⟨hstep, i, hk, hdescent, hprices⟩⟩
      · exact ⟨1, rfl, Bar.firstDescent_cons.2 (.inl ⟨rfl, hdescent⟩), by simpa using hprice⟩
      · refine ⟨i + 1, by omega, Bar.firstDescent_cons.2 (.inr ⟨hstep, i, rfl, hdescent⟩), ?_⟩
        rw [List.take_succ_cons]
        exact List.forall_mem_cons.2 ⟨hprice, hprices⟩
    · rintro ⟨i, hk, hdescent, hprices⟩
      rcases Bar.firstDescent_cons.1 hdescent with ⟨rfl, hnow⟩ | ⟨hstep, i, rfl, hlater⟩
      · exact ⟨hprices b (by simp), .inl ⟨hnow, by omega⟩⟩
      · rw [List.take_succ_cons] at hprices
        obtain ⟨hprice, hprices⟩ := List.forall_mem_cons.1 hprices
        exact ⟨hprice, .inr ⟨hstep, i, by omega, hlater, hprices⟩⟩

/-- **Which bars are refused for their order**: those that descend, at the first descent, if the
prices are positive up to there. -/
theorem readBars_unordered :
    (readBars (bars.map .inr)).run = .ok (.error (.unordered k)) ↔
      FirstDescent bars k ∧ ∀ b ∈ bars.take (k + 1), ¬b.price ≤ 0.0 := by
  cases bars with
  | nil => exact iff_of_false (fun h => by cases h) fun h => Bar.not_firstDescent_nil h.1
  | cons a bars =>
    rw [readBars, readBarsFrom_cons_unordered, readBarsFrom_unordered, List.take_succ_cons,
      List.forall_mem_cons]
    simp only [Option.all_none, Bool.true_eq_false, false_and, false_or, true_and]
    constructor
    · rintro ⟨hprice, i, hk, hdescent, hprices⟩
      obtain rfl : k = i := by omega
      exact ⟨hdescent, hprice, hprices⟩
    · rintro ⟨hdescent, hprice, hprices⟩
      exact ⟨hprice, k, by omega, hdescent, hprices⟩

/-! ### Running simulations -/

/-- Fee and capital are usable, and the bars descend at the place `k` and not before it, where the
prices are positive. -/
structure OrderRefused (options : Options) (bars : List Bar) (k : Nat) : Prop where
  terms : ∃ terms, (Terms.read options).run = .ok (.ok terms)
  descent : FirstDescent bars k
  prices : ∀ b ∈ bars.take (k + 1), ¬b.price ≤ 0.0

variable {settings : Settings} {b : Blueprint} {options : Options}

/-- **Which price lists are refused for their order.** -/
theorem read_unordered (settings : Settings) (b : Blueprint) :
    (∃ equity, (Setup.read settings (some b) (.ready bars) options).run =
      .ok (.error ⟨.unordered k, equity⟩)) ↔ OrderRefused options bars k := by
  constructor
  · rintro ⟨equity, h⟩
    cases Setup.read_iff.1 h with
    | badTerms hterms =>
      refine absurd rfl (Terms.failsOnly_read (p := fun failure => failure ≠ .unordered k)
        Failure.noConfusion ?_ ?_ options _ hterms)
      · exact fun _ => Failure.noConfusion
      · exact fun _ => Failure.noConfusion
    | badEntry hterms _ hentries hbars =>
      cases hentries
      obtain ⟨hdescent, hprices⟩ := readBars_unordered.1 hbars
      exact ⟨⟨_, hterms⟩, hdescent, hprices⟩
  · rintro ⟨⟨terms, hterms⟩, hdescent, hprices⟩
    have hsome : (Supply.ready bars).isEmpty = false := by
      cases bars with
      | nil => exact absurd hdescent Bar.not_firstDescent_nil
      | cons => rfl
    have hbars := readBars_unordered.2 ⟨hdescent, hprices⟩
    exact ⟨_, Setup.read_iff.2 (.badEntry hterms hsome rfl hbars)⟩

/-- **Which simulations are refused for the order of their bars.** -/
theorem run_unordered {μ : Type} {answers : Nat → Bool} {result : Result}
    (h : ((run settings (some b) (.ready bars) options : Routine μ Result).run answers).outcome =
      .ok result) :
    result.failure = some (.unordered k) ↔ OrderRefused options bars k := by
  rw [outcome_run] at h
  rw [← read_unordered settings b]
  obtain ⟨r, hr, h⟩ := bind_eq_ok.1 h
  rw [hr]
  cases r with
  | error refusal =>
    obtain rfl : _ = result := Except.ok.inj h
    obtain ⟨failure, equity⟩ := refusal
    simp
  | ok s =>
    refine iff_of_false (fun hfailure => ?_) fun ⟨equity, h⟩ => by cases h
    change ((s.run settings : Routine μ Result).run answers).outcome = _ at h
    rw [Setup.outcome_run] at h
    obtain ⟨series, -, h⟩ := bind_eq_ok.1 h
    obtain ⟨statement, -, h⟩ := bind_eq_ok.1 h
    obtain rfl : _ = result := Except.ok.inj h
    cases hstopped : statement.stopped <;> simp [Result.ofStatement, hstopped] at hfailure

theorem run_of_orderRefused {μ : Type} (h : OrderRefused options bars k) (settings : Settings)
    (b : Blueprint) (answers : Nat → Bool) :
    ∃ result, ((run settings (some b) (.ready bars) options : Routine μ Result).run answers).outcome =
      .ok result ∧ result.failure = some (.unordered k) := by
  obtain ⟨equity, hread⟩ := (read_unordered settings b).2 h
  rw [outcome_run, hread]
  exact ⟨_, rfl, rfl⟩

end StrategyGraph.Simulation
