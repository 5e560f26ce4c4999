import StrategyGraph.Proofs.Routine
import StrategyGraph.Worker.Serve

/-!
# What a worker reports

A worker that serves a request sends its last message right before it ends, and it ends without a
fault, whatever it is answered: `Worker.serve_reports`. A simulation sends nothing itself
(`Simulation.sends_run`).

* `Worker.Reports` : a routine with its last message still to send.
-/

namespace StrategyGraph

variable {μ α : Type} {p : μ → Prop}

/-! ### Simulations send nothing -/

theorem Ledger.Account.sends_play [Sub α] [Mul α] [Div α] [NatCast α] {fee : α}
    {trader : Ledger.Trader (Routine μ) α} (hstops : ∀ index, (trader.stops index).Sends p)
    (hbuys : ∀ index price, (trader.buys index price).Sends p)
    (hsells : ∀ index price entry, (trader.sells index price entry).Sends p) (a : Account α)
    (index : Nat) (prices : List α) : (a.play fee trader index prices).Sends p := by
  have hdecision : ∀ (a : Account α) index price isLast,
      (decision trader a index price isLast).Sends p := by
    intro a index price isLast
    unfold decision
    cases a.holding with
    | cash amount =>
      dsimp only
      split
      · exact .pure _
      · exact hbuys index price
    | position amount t => exact hsells index price t.entryPrice
  induction prices generalizing a index with
  | nil => exact .pure _
  | cons price prices ih =>
    refine (hstops index).bind fun stop => ?_
    split
    · exact .pure _
    · exact (hdecision ..).bind fun acts => ih _ _

namespace Simulation

variable (settings : Settings)

theorem sends_asksFor (b : Blueprint) (series : List (String × Series Number))
    (direction : Direction) (part : SubGraph) (index : Nat) (price : Float) (entry : Option Float) :
    (asksFor settings b series direction part index price entry : Routine μ Bool).Sends p := by
  unfold asksFor
  refine (Routine.Sends.sayAll _).bind fun _ => (Routine.Sends.lift _).bind fun found => ?_
  exact (Routine.Sends.sayAll _).bind fun _ => .pure _

theorem Setup.sends_run (s : Setup) : (s.run settings : Routine μ Result).Sends p := by
  refine (Routine.Sends.lift _).bind fun series => ?_
  refine Routine.Sends.bind ?_ fun statement => .pure _
  refine Routine.Sends.bind ?_ fun played => .pure _
  exact Ledger.Account.sends_play (fun _ => .stops) (fun _ _ => sends_asksFor ..)
    (fun _ _ _ => sends_asksFor ..) _ _ _

theorem sends_run (b : Option Blueprint) (prices : Supply Bar) (options : Options) :
    (run settings b prices options : Routine μ Result).Sends p := by
  have hlog : ∀ result : Result,
      (do Routine.sayAll [result.record]; pure result : Routine μ Result).Sends p :=
    fun result => (Routine.Sends.sayAll _).bind fun _ => .pure _
  refine (Routine.Sends.lift _).bind fun setup => ?_
  cases setup with
  | ok setup => exact (setup.sends_run settings).bind hlog
  | error refusal => exact (Routine.Sends.pure _).bind hlog

end Simulation

/-! ### Reports -/

namespace Worker

/-- The last message of the routine is still to be sent. Once it is sent, the routine ends, and
without a fault. -/
inductive Reports : Routine Message Unit → Prop where
  | say {record : Log.Record} {rest : Routine Message Unit} (h : Reports rest) :
      Reports (.say record rest)
  | send {message : Message} {rest : Routine Message Unit} (hmessage : message.isTerminal = false)
      (h : Reports rest) : Reports (.send message rest)
  | check {resume : Bool → Routine Message Unit} (h : ∀ stop, Reports (resume stop)) :
      Reports (.check resume)
  | last {message : Message} (hmessage : message.isTerminal = true) :
      Reports (.send message (.done (.ok ())))

theorem Reports.andThen {r : Routine Message α} {next : Except Fault α → Routine Message Unit}
    (hr : r.Sends fun message => message.isTerminal = false)
    (hnext : ∀ outcome, Reports (next outcome)) : Reports (r.andThen next) := by
  induction hr with
  | done outcome => exact hnext outcome
  | say record _ ih => exact .say ih
  | send hmessage _ ih => exact .send hmessage ih
  | check _ ih => exact .check ih

variable (settings : Settings)

theorem sends_simulate (request : Fields) :
    (simulate settings request).Sends fun message => message.isTerminal = false := by
  have hstarted : (Routine.sending .started : Routine Message Unit).Sends
      fun message => message.isTerminal = false := .send (by rfl) (.done _)
  refine (Routine.Sends.lift _).bind fun blueprint => (Routine.Sends.sayAll _).bind fun _ => ?_
  refine (Routine.Sends.lift _).bind fun bars => (Routine.Sends.lift _).bind fun length => ?_
  exact hstarted.bind fun _ => Simulation.sends_run ..

/-- **Every request is answered with one last message.** -/
theorem serve_reports (request : Json) : Reports (serve settings request) := by
  unfold serve
  split
  · next fields =>
    split
    · rw [Routine.attempt_bind]
      refine Reports.andThen (sends_simulate settings fields) fun outcome => ?_
      cases outcome with
      | ok result => exact .last rfl
      | error fault => exact .say (.last rfl)
    · exact .last rfl
  · exact .last rfl

end Worker

end StrategyGraph
