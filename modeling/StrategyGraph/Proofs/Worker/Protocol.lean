import StrategyGraph.Proofs.Price.Ordered
import StrategyGraph.Proofs.Worker.Outcome

/-!
# The messages of a worker

A worker answers every request, be it an object or not, and whatever it is told when it asks whether
to stop: with an error, with a report that the simulation has started and its result, or with that
report and an error.

* `Worker.ComesTo` : all data of a request is there, no stage of serving it raises a fault, and its
  simulation comes to a result;
* `Worker.messages_simulate` : what a simulation sends before its end;
* `Worker.Protocol` : the messages that answer a request;
* `Worker.serve_protocol` : **the messages of a worker**, and when the last one has a result.
-/

namespace StrategyGraph.Worker

open Routine (never runFrom)

variable {settings : Settings} {fields : Fields} {answers : Nat → Bool} {result : Simulation.Result}
  {blueprint : Blueprint} {bars : List Bar} {prices : Json} {entries : Nat}

/-! ### Dropped entries -/

/-- The warning that entries of a price list are no bars, if some are not. -/
def droppedWarning (entries bars : Nat) : List Warning :=
  if bars < entries then [.droppedPrices (entries - bars)] else []

theorem length_normalize_le (hbars : Bar.normalize prices = .ok bars)
    (hentries : prices.length = .ok entries) : bars.length ≤ entries := by
  obtain ⟨read, hread, rfl⟩ := map_eq_ok.1 hbars
  obtain ⟨items, hitems, hread⟩ := bind_eq_ok.1 hread
  obtain ⟨found, hfound, hread⟩ := bind_eq_ok.1 hread
  obtain rfl := Except.ok.inj hread
  have hitemsLength : items.length ≤ entries := by
    unfold Json.itemsIfAny at hitems
    split at hitems
    · exact Nat.le_of_eq (Except.ok.inj ((Json.length_of_items hitems).symm.trans hentries))
    · cases hitems
      exact Nat.zero_le _
  rw [(Bar.perm_inOrder _).length_eq]
  exact Nat.le_trans (List.length_filterMap_le _ _)
    (Nat.le_of_eq (length_of_mapM hfound) |>.trans hitemsLength)

theorem withDropped_eq (h : bars.length ≤ entries) : withDropped blueprint entries bars.length =
    { blueprint with
      warnings := blueprint.warnings ++ droppedWarning entries bars.length } := by
  rw [withDropped, droppedWarning]
  rcases Nat.lt_or_eq_of_le h with hless | heq
  · rw [if_neg (Nat.ne_of_lt hless), if_pos hless]
  · rw [if_pos heq, if_neg (by omega), List.append_nil]

/-! ### Results -/

/-- The request is an object with nodes, edges and prices. Its graph compiles, its prices can be
read and counted, and the simulation of the blueprint over the bars comes to the result, if it is
answered so. -/
inductive ComesTo (settings : Settings) (answers : Nat → Bool) : Json → Simulation.Result → Prop
  | intro {fields : Fields} {blueprint : Blueprint} {bars : List Bar} {entries : Nat}
      {result : Simulation.Result}
      (hnodes : (fields.get "nodes").isNull = false) (hedges : (fields.get "edges").isNull = false)
      (hprices : (fields.get "prices").isNull = false)
      (hblueprint : compile settings (.payload (fields.get "nodes")) (.payload (fields.get "edges"))
        (fields.get "parameters") = .ok blueprint)
      (hbars : Bar.normalize (fields.get "prices") = .ok bars)
      (hentries : (fields.get "prices").length = .ok entries)
      (hresult : ((Simulation.run settings
        (some { blueprint with
          warnings := blueprint.warnings ++ droppedWarning entries bars.length })
        (.ready bars) (Simulation.Options.ofRequest settings fields) :
          Routine Message Simulation.Result).run answers).outcome = .ok result) :
      ComesTo settings answers (.object fields) result

theorem hasData_iff : hasData fields = true ↔ (fields.get "nodes").isNull = false ∧
    (fields.get "edges").isNull = false ∧ (fields.get "prices").isNull = false := by
  simp [hasData]

theorem comesTo_iff (hdata : hasData fields = true) :
    ComesTo settings answers (.object fields) result ↔
      ((simulate settings fields).run answers).outcome = .ok result := by
  rw [outcome_simulate]
  constructor
  · rintro ⟨-, -, -, hblueprint, hbars, hentries, hresult⟩
    rw [← withDropped_eq (length_normalize_le hbars hentries)] at hresult
    exact bind_eq_ok.2 ⟨_, hblueprint, bind_eq_ok.2 ⟨_, hbars, bind_eq_ok.2 ⟨_, hentries, hresult⟩⟩⟩
  · intro h
    obtain ⟨blueprint, hblueprint, h⟩ := bind_eq_ok.1 h
    obtain ⟨bars, hbars, h⟩ := bind_eq_ok.1 h
    obtain ⟨entries, hentries, hresult⟩ := bind_eq_ok.1 h
    rw [withDropped_eq (length_normalize_le hbars hentries)] at hresult
    obtain ⟨hnodes, hedges, hprices⟩ := hasData_iff.1 hdata
    exact .intro hnodes hedges hprices hblueprint hbars hentries hresult

/-! ### Messages -/

/-- A simulation of a request ends with a fault before it has started, or it sends that it has
started and nothing else. -/
theorem messages_simulate (settings : Settings) (fields : Fields) (answers : Nat → Bool) :
    (∃ fault, ((simulate settings fields).run answers).outcome = .error fault ∧
      ((simulate settings fields).run answers).messages = []) ∨
      ((simulate settings fields).run answers).messages = [.started] := by
  unfold simulate Routine.run
  cases compile settings (.payload (fields.get "nodes")) (.payload (fields.get "edges"))
      (fields.get "parameters") with
  | error fault => exact .inl ⟨fault, rfl, rfl⟩
  | ok blueprint =>
    simp only [Routine.lift_ok_bind, Routine.outcome_sayAll_bind, Routine.messages_sayAll_bind]
    cases Bar.normalize (fields.get "prices") with
    | error fault => exact .inl ⟨fault, rfl, rfl⟩
    | ok bars =>
      cases (fields.get "prices").length with
      | error fault => exact .inl ⟨fault, rfl, rfl⟩
      | ok entries =>
        -- The simulation itself sends nothing.
        have hsilent : (runFrom answers 0 (Simulation.run settings
            (some (withDropped blueprint entries bars.length)) (.ready bars)
            (Simulation.Options.ofRequest settings fields) :
              Routine Message Simulation.Result)).messages = [] :=
          List.eq_nil_iff_forall_not_mem.2 fun message hmessage =>
            (Simulation.sends_run (p := fun _ => False) ..).mem_messages message hmessage
        exact .inr (congrArg (Message.started :: ·) hsilent)

/-- The messages that answer a request. -/
inductive Protocol : List Message → Prop
  /-- The request is answered with an error. -/
  | refused (problem : Problem) : Protocol [.error problem]
  /-- The simulation has started and ended. -/
  | ended (result : Simulation.Result) : Protocol [.started, .complete result]
  /-- The simulation has started, and there was an error. -/
  | broken (problem : Problem) : Protocol [.started, .error problem]

theorem serve_of_not_hasData (hdata : hasData fields = false) :
    serve settings (.object fields) = Routine.sending (.error .missingData) := by
  rw [serve, if_neg (by simp [hdata])]

theorem protocol_serve (settings : Settings) (request : Json) (answers : Nat → Bool) :
    Protocol ((serve settings request).run answers).messages := by
  cases request with
  | object fields =>
    cases hdata : hasData fields with
    | false =>
      rw [serve_of_not_hasData hdata]
      exact .refused _
    | true =>
      rw [(runFrom_serve settings answers hdata).1]
      rcases messages_simulate settings fields answers with ⟨fault, houtcome, hnone⟩ | hstarted
      · rw [houtcome, hnone]
        exact .refused _
      · rw [hstarted]
        cases ((simulate settings fields).run answers).outcome with
        | ok result => exact .ended result
        | error fault => exact .broken _
  | null | bool | number | string | array => exact .refused _

/-- What a worker has sent on its way is nothing, that the simulation has started, or all that
answers the request. -/
theorem sent_cases {request : Json} {sent : List Message} {given : List Bool}
    {rest : Routine Message Unit} (h : (serve settings request).Leads sent given rest) :
    sent = [] ∨ sent = [.started] ∨ Protocol sent := by
  obtain ⟨answers, hanswers⟩ := Routine.exists_answers given
  have hprotocol := protocol_serve settings request answers
  rw [(h.runFrom_eq hanswers).1] at hprotocol
  -- With what is still to come, what was sent makes all messages of a run with these answers.
  generalize (runFrom answers given.length rest).messages = more at hprotocol
  have hsecond : ∀ last, sent ++ more = [.started, last] →
      sent = [] ∨ sent = [.started] ∨ Protocol sent := by
    intro last hmessages
    rw [hmessages] at hprotocol
    rcases List.append_eq_cons_iff.1 hmessages with ⟨rfl, -⟩ | ⟨first, rfl, hfirst⟩
    · exact .inl rfl
    · rcases List.append_eq_singleton_iff.1 hfirst.symm with ⟨rfl, -⟩ | ⟨rfl, -⟩
      · exact .inr (.inl rfl)
      · exact .inr (.inr hprotocol)
  generalize hmessages : sent ++ more = messages at hprotocol hsecond
  cases hprotocol with
  | refused problem =>
    rcases List.append_eq_singleton_iff.1 hmessages with ⟨rfl, -⟩ | ⟨rfl, -⟩
    · exact .inl rfl
    · exact .inr (.inr (.refused problem))
  | ended result => exact hsecond _ rfl
  | broken problem => exact hsecond _ rfl

theorem Reports.outcome_eq {r : Routine Message Unit} (h : Reports r) (asked : Nat) :
    (runFrom answers asked r).outcome = .ok () := by
  induction h generalizing asked with
  | say _ ih | send _ _ ih => exact ih asked
  | check _ ih => exact ih _ (asked + 1)
  | last => rfl

theorem complete_mem_iff (request : Json) :
    .complete result ∈ ((serve settings request).run answers).messages ↔
      ComesTo settings answers request result := by
  have hrefused : ∀ problem, serve settings request = Routine.sending (.error problem) →
      .complete result ∉ ((serve settings request).run answers).messages := by
    intro problem hserve hmem
    rw [hserve] at hmem
    cases List.mem_singleton.1 hmem
  cases request with
  | object fields =>
    cases hdata : hasData fields with
    | false =>
      refine iff_of_false (hrefused _ (serve_of_not_hasData hdata)) ?_
      rintro ⟨hnodes, hedges, hprices, -⟩
      rw [hasData_iff.2 ⟨hnodes, hedges, hprices⟩] at hdata
      cases hdata
    | true =>
      rw [comesTo_iff hdata, (runFrom_serve settings answers hdata).1, List.mem_append,
        List.mem_singleton]
      have hbefore : .complete result ∉ ((simulate settings fields).run answers).messages :=
        fun hmem => by cases (sends_simulate settings fields).mem_messages _ hmem
      cases ((simulate settings fields).run answers).outcome with
      | ok found => simp [hbefore, lastOf, eq_comm]
      | error fault => simp [hbefore, lastOf]
  | null | bool | number | string | array =>
    exact iff_of_false (hrefused _ rfl) fun h => by cases h

/-- **The messages of a worker.** Whatever a request is and whatever its worker is answered when it
asks whether to stop, serving it ends without a fault. The messages are an error; that the
simulation has started, and its result; or that it has started, and an error. The result is there
if and only if the request is an object with nodes, edges and prices and no stage of serving it
raises a fault, and then it is that of the simulation. The reply is the last message of a worker
that nobody stops, and the only one but that the simulation has started. -/
theorem serve_protocol (settings : Settings) (request : Json) (answers : Nat → Bool) :
    ((serve settings request).run answers).outcome = .ok () ∧
    Protocol ((serve settings request).run answers).messages ∧
    (∀ result, .complete result ∈ ((serve settings request).run answers).messages ↔
      ComesTo settings answers request result) ∧
    ∃ last, reply settings request = some last ∧
      (transcript settings request).messages.getLast? = some last ∧
      (transcript settings request).messages.filter Message.isTerminal = [last] := by
  refine ⟨(serve_reports settings request).outcome_eq 0, protocol_serve settings request answers,
    fun result => complete_mem_iff request, ?_⟩
  have hprotocol : Protocol (transcript settings request).messages :=
    protocol_serve settings request never
  rw [reply, terminal?]
  generalize (transcript settings request).messages = messages at hprotocol ⊢
  cases hprotocol with
  | refused problem => exact ⟨_, rfl, rfl, rfl⟩
  | ended result => exact ⟨_, rfl, rfl, rfl⟩
  | broken problem => exact ⟨_, rfl, rfl, rfl⟩

end StrategyGraph.Worker
