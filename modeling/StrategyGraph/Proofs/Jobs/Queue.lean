import StrategyGraph.Jobs.Turn
import StrategyGraph.Proofs.Jobs.Store

/-!
# The queue under repeated ids

Callers may choose the ids of their jobs, and may choose one twice. A new job then takes the place
of the earlier one with its id. Where the earlier one still waits, the id stands in the queue twice,
and a cancellation takes only one of both away.

* `Call` : submissions, cancellations and whole turns of the worker; `Store.afterAll` is what they
  lead to, and `Store.entered` the job that one of them enters;
* `Store.Effect` : what a call may do to a store;
* `Store.Coherent` : no job waits twice, and all that wait are queued; `Coherent.after` : calls keep
  it so, but for the submission of a job that waits (`not_coherent_after`);
* `Store.Rests` : a job is at its end and does not wait; `Rests.after` : calls keep it so, but for a
  new submission;
* `Store.coherent_iff` : **the queue stays coherent just if no job is submitted that waits**, and
  then a job that was cancelled in the queue is not served any more. `Store.cancelled_then_served` :
  else it may be.
-/

namespace StrategyGraph.Jobs

open Worker (Message)

/-- What is done with jobs. -/
inductive Call where
  /-- Someone submits a request. -/
  | submit (request : Json)
  /-- Someone cancels the job with an id. -/
  | cancel (id : Json)
  /-- The worker takes a job off the queue and serves it. -/
  | turn

namespace Store

variable (settings : Settings)

/-- The store after a call. A submission or cancellation that is refused changes nothing. -/
def after (s : Store) : Call → Store
  | .submit request =>
    match s.submit request with
    | .ok (_, s') => s'
    | .error _ => s
  | .cancel id =>
    match s.cancel id with
    | .ok (_, s') => s'
    | .error _ => s
  | .turn => (turn settings undisturbed s).value

/-- The store after calls, one after the other. -/
def afterAll (s : Store) (calls : List Call) : Store := calls.foldl (after settings) s

/-- The key of the job that a call enters. -/
def entered (s : Store) : Call → Option Key
  | .submit request => (s.submit request).toOption.map fun r => r.1.key
  | .cancel _ | .turn => none

/-- The keys of the jobs that calls enter, one after the other. -/
def entries (s : Store) : List Call → List Key
  | [] => []
  | call :: calls => (s.entered call).toList ++ entries (s.after settings call) calls

/-- No job is submitted that waits. -/
def Patient (s : Store) : List Call → Prop
  | [] => True
  | call :: calls =>
    (∀ key ∈ s.entered call, s.awaits key = false) ∧ Patient (s.after settings call) calls

/-- No job waits twice, and the jobs that wait are queued. -/
structure Coherent (s : Store) : Prop where
  /-- No job waits twice. -/
  nodup : (s.waiting.map Ticket.key).Nodup
  /-- The jobs that wait are queued. -/
  queued : ∀ key, s.awaits key = true → ∃ job, s.job? key = some job ∧ job.status = .queued

/-- The job has come to its end and does not wait. -/
structure Rests (key : Key) (job : Job) (s : Store) : Prop where
  known : s.job? key = some job
  ended : job.status.isFinal = true
  away : s.awaits key = false

variable {s s' : Store} {key other : Key} {job job' : Job} {number : Nat}
  {t : Ticket}

theorem afterAll_append (before after : List Call) :
    s.afterAll settings (before ++ after) =
      (s.afterAll settings before).afterAll settings after :=
  List.foldl_append

/-! ### What turns touch -/

/-- At most the job with a number has changed, but for its key and number. What waits is as before.
-/
structure Touches (number : Nat) (s s' : Store) : Prop where
  waiting : s'.waiting = s.waiting
  submitted : s'.submitted = s.submitted
  jobs : ∃ change : Job → Job,
    (∀ job, (change job).key = job.key ∧ (change job).number = job.number) ∧
      s'.jobs = (s.update number change).jobs

namespace Touches

theorem refl (s : Store) : Touches number s s :=
  ⟨rfl, rfl, id, fun _ => ⟨rfl, rfl⟩, by simp [update]⟩

theorem update {change : Job → Job}
    (h : ∀ job, (change job).key = job.key ∧ (change job).number = job.number) :
    Touches number s (s.update number change) :=
  ⟨rfl, rfl, change, h, rfl⟩

theorem trans {s'' : Store} (h : Touches number s s') (h' : Touches number s' s'') :
    Touches number s s'' := by
  obtain ⟨change, hchange, hjobs⟩ := h.jobs
  obtain ⟨change', hchange', hjobs'⟩ := h'.jobs
  refine ⟨h'.waiting.trans h.waiting, h'.submitted.trans h.submitted, change' ∘ change,
    fun job => ?_, ?_⟩
  · exact ⟨(hchange' _).1.trans (hchange job).1, (hchange' _).2.trans (hchange job).2⟩
  · simp only [Store.update] at hjobs hjobs' ⊢
    rw [hjobs', hjobs, List.map_map]
    refine List.map_congr_left fun job _ => ?_
    by_cases hnumber : job.number = number
    · simp [hnumber, (hchange job).2]
    · simp [hnumber]

theorem job?_eq (h : Touches number s s') : ∃ change : Job → Job,
    (∀ job, (change job).key = job.key ∧ (change job).number = job.number) ∧
      ∀ key, s'.job? key =
        (s.job? key).map fun job => if job.number = number then change job else job := by
  obtain ⟨change, hchange, hjobs⟩ := h.jobs
  refine ⟨change, hchange, fun key => ?_⟩
  rw [← job?_update fun job => (hchange job).1, job?, hjobs]
  rfl

theorem numbered (h : Touches number s s') (hs : s.Numbered) : s'.Numbered := by
  obtain ⟨change, hchange, hjobs⟩ := h.jobs
  exact (hs.update (fun job => (hchange job).1) fun job => (hchange job).2).of_eq hjobs h.submitted

/-- Touching one job leaves the others. -/
theorem job?_of_ne (h : Touches job.number s s') (hs : s.Numbered) (hjob : s.job? key = some job)
    (hother : other ≠ key) : s'.job? other = s.job? other := by
  obtain ⟨change, -, hjobs⟩ := h.job?_eq
  rw [hjobs]
  cases hfound : s.job? other with
  | none => rfl
  | some found =>
    have hnumber : found.number ≠ job.number := fun hnumber =>
      hother (hs.distinct other key found job hfound hjob hnumber)
    rw [Option.map_some, if_neg hnumber]

end Touches

theorem touches_finish (t : Ticket) (number asked : Nat) (s : Store)
    (rest : Routine Message Unit) :
    Touches number s (finish undisturbed t number asked s rest).value := by
  induction rest generalizing asked s with
  | done outcome => exact ⟨rfl, rfl, (Touches.refl s).jobs⟩
  | say line rest ih => exact ih asked s
  | send message rest ih =>
    have hrecord : ∀ job : Job, (job.record message).key = job.key ∧
        (job.record message).number = job.number := fun job =>
      ⟨job.key_record message, job.number_record message⟩
    exact (Touches.update hrecord).trans (ih asked _)
  | check resume ih => exact ih _ (asked + 1) s

/-- Without a job that waits, a turn does nothing. Else it takes the first one off the queue, serves
it if it is known, and touches no other one. -/
theorem turn_cases (s : Store) :
    s.waiting = [] ∧ s.after settings .turn = s ∨
      ∃ t tickets, s.waiting = t :: tickets ∧
        (s.after settings .turn = { s with waiting := tickets } ∨
          ∃ job, s.job? t.key = some job ∧
            Touches job.number { s with waiting := tickets } (s.after settings .turn)) := by
  rw [after, turn, next?]
  cases s.waiting with
  | nil => exact .inl ⟨rfl, rfl⟩
  | cons t tickets =>
    refine .inr ⟨t, tickets, rfl, ?_⟩
    have hknown : ({ s with waiting := tickets } : Store).job? t.key = s.job? t.key := rfl
    dsimp only
    rw [serveTicket, begin?, hknown]
    cases hjob : s.job? t.key with
    | none => exact .inl rfl
    | some job =>
      have hstart : Touches job.number { s with waiting := tickets }
          (({ s with waiting := tickets } : Store).start job.number) :=
        Touches.update fun job => ⟨rfl, rfl⟩
      exact .inr ⟨job, rfl, hstart.trans (touches_finish ..)⟩

/-! ### What calls do -/

/-- What a call may do to a store, for the key of the job that it enters. -/
inductive Effect (s : Store) : Option Key → Store → Prop where
  /-- Nothing to the jobs and the queue. -/
  | none {s' : Store} (hwaiting : s'.waiting = s.waiting) (hjobs : s'.job? = s.job?) :
    Effect s none s'
  /-- It enters a job at the end of the queue. -/
  | entry {s' : Store} {job : Job} (hwaiting : s'.waiting = s.waiting ++ [job.ticket])
    (hjobs : s.Sets s' job.key job) (hstatus : job.status = .queued) : Effect s (some job.key) s'
  /-- It cancels a job that waits. -/
  | withdrawal {s' : Store} {key : Key} {job : Job} (hjob : s.job? key = some job)
    (hstatus : job.status.isFinal = false)
    (hwaiting : s'.waiting.map Ticket.key = (s.waiting.map Ticket.key).erase key)
    (hjobs : s.Sets s' key job.cancel) : Effect s .none s'
  /-- It takes the first job off the queue and serves it. -/
  | service {s' : Store} {t : Ticket} (hwaiting : s.waiting = t :: s'.waiting)
    (hjobs : ∀ other, other ≠ t.key → s'.job? other = s.job? other) : Effect s .none s'

theorem submit_cases (s : Store) (request : Json) :
    s.entered (.submit request) = none ∧ s.after settings (.submit request) = s ∨
      ∃ job s', s.submit request = .ok (job, s') ∧ s.entered (.submit request) = some job.key ∧
        s.after settings (.submit request) = s' := by
  rw [entered, after]
  cases s.submit request with
  | error fault => exact .inl ⟨rfl, rfl⟩
  | ok r => exact .inr ⟨r.1, r.2, rfl, rfl, rfl⟩

/-- A cancellation takes a job that waits out of the queue, flags one, or does nothing. -/
theorem after_cancel_cases (s : Store) (id : Json) :
    s.after settings (.cancel id) = s ∨ (∃ t, s.after settings (.cancel id) = s.flag t) ∨
      ∃ key job, s.job? key = some job ∧ job.status.isFinal = false ∧
        s.after settings (.cancel id) = (s.unqueue key).update job.number Job.cancel := by
  rw [after]
  cases hcancel : s.cancel id with
  | error fault => exact .inl rfl
  | ok r =>
    rcases cancel_cases hcancel with
      hsame | ⟨t, -, -, -, -, -, hflag⟩ | ⟨key, job, -, -, hjob, hfinal, h⟩
    · exact .inl hsame
    · exact .inr (.inl ⟨t, hflag⟩)
    · exact .inr (.inr ⟨key, job, hjob, hfinal, h⟩)

/-- **What a call does** to jobs that are told apart by their numbers. -/
theorem Numbered.effect (hs : s.Numbered) (call : Call) :
    s.Effect (s.entered call) (s.after settings call) := by
  cases call with
  | submit request =>
    rcases s.submit_cases settings request with
      ⟨hentered, hsame⟩ | ⟨job, s', hsubmit, hentered, rfl⟩
    · rw [hentered, hsame]
      exact .none rfl rfl
    · obtain ⟨hwaiting, -, -, hsets, -, hstatus⟩ := submit_ok hsubmit
      rw [hentered]
      exact .entry hwaiting hsets hstatus
  | cancel id =>
    rcases s.after_cancel_cases settings id with
      hsame | ⟨t, hflag⟩ | ⟨key, job, hjob, hfinal, hcancel⟩
    · rw [hsame]
      exact .none rfl rfl
    · obtain ⟨stopping, hstopping⟩ := s.flag_eq t
      rw [hflag, hstopping]
      exact .none rfl rfl
    · rw [hcancel]
      exact .withdrawal hjob hfinal waiting_unqueue (hs.sets_update hjob fun _ => rfl)
  | turn =>
    rcases s.turn_cases settings with
      ⟨-, hsame⟩ | ⟨t, tickets, hwaiting, hnone | ⟨job, hjob, htouches⟩⟩
    · rw [hsame]
      exact .none rfl rfl
    · rw [hnone]
      exact .service hwaiting fun _ _ => rfl
    · refine .service (t := t) ?_ fun other hother => ?_
      · rw [hwaiting, htouches.waiting]
      · exact htouches.job?_of_ne (hs.of_eq rfl rfl) hjob hother

theorem Numbered.after (hs : s.Numbered) (call : Call) : (s.after settings call).Numbered := by
  cases call with
  | submit request =>
    rcases s.submit_cases settings request with ⟨-, hsame⟩ | ⟨job, s', hsubmit, -, rfl⟩
    · rw [hsame]
      exact hs
    · exact hs.submit hsubmit
  | cancel id =>
    rcases s.after_cancel_cases settings id with
      hsame | ⟨t, hflag⟩ | ⟨key, job, -, -, hcancel⟩
    · rw [hsame]
      exact hs
    · obtain ⟨stopping, hstopping⟩ := s.flag_eq t
      rw [hflag, hstopping]
      exact hs.of_eq rfl rfl
    · have hunqueue : (s.unqueue key).Numbered := hs.of_eq rfl rfl
      rw [hcancel]
      exact hunqueue.update (fun _ => rfl) fun _ => rfl
  | turn =>
    rcases s.turn_cases settings with
      ⟨-, hsame⟩ | ⟨t, tickets, -, hnone | ⟨job, -, htouches⟩⟩
    · rw [hsame]
      exact hs
    · rw [hnone]
      exact hs.of_eq rfl rfl
    · exact htouches.numbered (hs.of_eq rfl rfl)

/-! ### One call -/

theorem Coherent.after (h : s.Coherent) (hs : s.Numbered) (call : Call)
    (hnew : ∀ key ∈ s.entered call, s.awaits key = false) : (s.after settings call).Coherent := by
  have heffect := hs.effect settings call
  generalize s.after settings call = s' at heffect
  generalize s.entered call = entered at heffect hnew
  have hkeys : ∀ {s : Store} {key : Key}, s.awaits key = true ↔ key ∈ s.waiting.map Ticket.key :=
    awaits_iff
  cases heffect with
  | none hwaiting hjobs =>
    refine ⟨hwaiting ▸ h.nodup, fun key hkey => ?_⟩
    rw [hkeys, hwaiting, ← hkeys] at hkey
    exact hjobs ▸ h.queued key hkey
  | @entry _ job hwaiting hjobs hstatus =>
    have haway : job.key ∉ s.waiting.map Ticket.key := by
      rw [← hkeys, hnew job.key rfl]
      exact Bool.false_ne_true
    have hwaiting' : s'.waiting.map Ticket.key = s.waiting.map Ticket.key ++ [job.key] := by
      rw [hwaiting, List.map_append]
      rfl
    refine ⟨?_, fun key hkey => ?_⟩
    · rw [hwaiting', List.nodup_append]
      refine ⟨h.nodup, by simp, fun key hkey other hother heq => haway ?_⟩
      rw [← List.mem_singleton.1 hother, ← heq]
      exact hkey
    · rw [hkeys, hwaiting', List.mem_append, List.mem_singleton] at hkey
      rcases hkey with hkey | rfl
      · obtain ⟨found, hfound, hqueued⟩ := h.queued key (hkeys.2 hkey)
        exact ⟨found, (hjobs.of_ne fun heq => haway (heq ▸ hkey)).trans hfound, hqueued⟩
      · exact ⟨job, hjobs.self, hstatus⟩
  | @withdrawal _ key job hjob hfinal hwaiting hjobs =>
    refine ⟨hwaiting ▸ h.nodup.erase key, fun other hother => ?_⟩
    rw [hkeys, hwaiting, h.nodup.mem_erase_iff, ← hkeys] at hother
    obtain ⟨found, hfound, hqueued⟩ := h.queued other hother.2
    exact ⟨found, (hjobs.of_ne hother.1).trans hfound, hqueued⟩
  | @service _ t hwaiting hjobs =>
    have hnodup := h.nodup
    rw [hwaiting, List.map_cons, List.nodup_cons] at hnodup
    refine ⟨hnodup.2, fun key hkey => ?_⟩
    rw [hkeys] at hkey
    have hother : key ≠ t.key := fun heq => hnodup.1 (heq ▸ hkey)
    have hbefore : s.awaits key = true := by
      rw [hkeys, hwaiting]
      exact List.mem_cons_of_mem _ hkey
    obtain ⟨found, hfound, hqueued⟩ := h.queued key hbefore
    exact ⟨found, (hjobs key hother).trans hfound, hqueued⟩

/-- Submitting a job that waits puts it into the queue a second time. -/
theorem not_coherent_after {call : Call} (hentered : s.entered call = some key)
    (hawaits : s.awaits key = true) : ¬(s.after settings call).Coherent := by
  cases call with
  | cancel id => cases hentered
  | turn => cases hentered
  | submit request =>
    rcases s.submit_cases settings request with
      ⟨hnone, -⟩ | ⟨job, s', hsubmit, hsome, rfl⟩
    · cases hnone.symm.trans hentered
    · obtain rfl : job.key = key := Option.some.inj (hsome.symm.trans hentered)
      intro h
      have hnodup := h.nodup
      rw [(submit_ok hsubmit).1, List.map_append, List.nodup_append] at hnodup
      exact hnodup.2.2 _ (awaits_iff.1 hawaits) _ (List.mem_singleton_self _) rfl

theorem Rests.after (h : s.Rests key job) (hs : s.Numbered) (call : Call)
    (hnew : key ∉ s.entered call) : (s.after settings call).Rests key job := by
  have heffect := hs.effect settings call
  generalize s.after settings call = s' at heffect
  generalize s.entered call = entered at heffect hnew
  have haway : key ∉ s.waiting.map Ticket.key := by
    rw [← awaits_iff, h.away]
    exact Bool.false_ne_true
  suffices hsame : s'.job? key = s.job? key ∧ key ∉ s'.waiting.map Ticket.key by
    refine ⟨hsame.1.trans h.known, h.ended, ?_⟩
    rw [← Bool.not_eq_true, awaits_iff]
    exact hsame.2
  cases heffect with
  | none hwaiting hjobs => exact ⟨congrFun hjobs key, hwaiting ▸ haway⟩
  | @entry _ entry hwaiting hjobs hstatus =>
    have hother : key ≠ entry.key := fun heq => hnew (heq ▸ rfl)
    refine ⟨hjobs.of_ne hother, ?_⟩
    rw [hwaiting, List.map_append, List.mem_append, not_or]
    exact ⟨haway, fun hkey => hother (List.mem_singleton.1 hkey)⟩
  | @withdrawal _ key' job' hjob hfinal hwaiting hjobs =>
    have hother : key ≠ key' := by
      rintro rfl
      cases h.known.symm.trans hjob
      cases h.ended.symm.trans hfinal
    exact ⟨hjobs.of_ne hother, hwaiting ▸ fun hkey => haway (List.mem_of_mem_erase hkey)⟩
  | @service _ t hwaiting hjobs =>
    rw [hwaiting, List.map_cons, List.mem_cons, not_or] at haway
    exact ⟨hjobs key haway.1, haway.2⟩

/-- Cancelling a job that waits puts it to rest, when the queue is coherent. -/
theorem Coherent.rests_cancel (h : s.Coherent) (hs : s.Numbered) {id : Json}
    (hid : Key.of? id = some key) (hawaits : s.awaits key = true) :
    ∃ job, s.job? key = some job ∧ (s.after settings (.cancel id)).Rests key job.cancel := by
  obtain ⟨job, hjob, hqueued⟩ := h.queued key hawaits
  have hcancel : s.after settings (.cancel id) = (s.unqueue key).update job.number Job.cancel := by
    rw [Store.after, cancel_of_key hid]
    exact cancelTicket_of_awaits hjob (hqueued ▸ rfl) hawaits
  have hjobs : s.Sets ((s.unqueue key).update job.number Job.cancel) key job.cancel :=
    hs.sets_update hjob fun _ => rfl
  refine ⟨job, hjob, hcancel ▸ ⟨hjobs.self, rfl, ?_⟩⟩
  rw [← Bool.not_eq_true, awaits_iff]
  change key ∉ (s.unqueue key).waiting.map Ticket.key
  rw [waiting_unqueue]
  exact h.nodup.not_mem_erase

/-! ### Any number of calls -/

theorem Numbered.afterAll (hs : s.Numbered) (calls : List Call) :
    (s.afterAll settings calls).Numbered := by
  induction calls generalizing s with
  | nil => exact hs
  | cons call calls ih => exact ih (hs.after settings call)

theorem Rests.afterAll (h : s.Rests key job) (hs : s.Numbered) {calls : List Call}
    (hnew : key ∉ s.entries settings calls) : (s.afterAll settings calls).Rests key job := by
  induction calls generalizing s with
  | nil => exact h
  | cons call calls ih =>
    rw [entries, List.mem_append, not_or, Option.mem_toList] at hnew
    exact ih (h.after settings hs call hnew.1) (hs.after settings call) hnew.2

/-- The queue stays coherent just if no job is submitted that waits. -/
theorem Coherent.iff_patient (h : s.Coherent) (hs : s.Numbered) (calls : List Call) :
    (∀ before after, calls = before ++ after → (s.afterAll settings before).Coherent) ↔
      s.Patient settings calls := by
  induction calls generalizing s with
  | nil =>
    refine ⟨fun _ => trivial, fun _ before after hcalls => ?_⟩
    obtain ⟨rfl, -⟩ := List.append_eq_nil_iff.1 hcalls.symm
    exact h
  | cons call calls ih =>
    constructor
    · intro hall
      have hnext : (s.after settings call).Coherent := hall [call] calls rfl
      refine ⟨fun key hkey => ?_,
        (ih hnext (hs.after settings call)).1 fun before after hcalls => ?_⟩
      · rw [← Bool.not_eq_true]
        exact fun hawaits => not_coherent_after settings hkey hawaits hnext
      · exact hall (call :: before) after (hcalls ▸ rfl)
    · rintro ⟨hnew, hpatient⟩ before after hcalls
      cases before with
      | nil => exact h
      | cons first before =>
        obtain ⟨rfl, hrest⟩ := List.cons.inj hcalls
        exact (ih (h.after settings hs call hnew) (hs.after settings call)).2 hpatient before after
          hrest

theorem coherent_opened (ids : Nat → String) : (Store.opened ids).Coherent :=
  ⟨.nil, by simp [awaits, Store.opened]⟩

/-- **The queue under repeated ids.** At every moment, no job waits twice and all that wait are
queued, just if nobody submits a job that waits. Then a job that was taken off the queue and
cancelled stays as it is, and away from the queue, until a new one is submitted with its id. -/
theorem coherent_iff (ids : Nat → String) (settings : Settings) (calls : List Call) :
    let start := Store.opened ids
    ((∀ before after, calls = before ++ after → (start.afterAll settings before).Coherent) ↔
      start.Patient settings calls) ∧
    (start.Patient settings calls → ∀ before id during after key,
      calls = before ++ .cancel id :: (during ++ after) → Key.of? id = some key →
      (start.afterAll settings before).awaits key = true →
      key ∉ (start.afterAll settings (before ++ [.cancel id])).entries settings during →
      ∃ job, (start.afterAll settings before).job? key = some job ∧
        (start.afterAll settings (before ++ .cancel id :: during)).job? key = some job.cancel ∧
        (start.afterAll settings (before ++ .cancel id :: during)).awaits key = false) := by
  intro start
  have hiff := (coherent_opened ids).iff_patient settings (Numbered.opened ids) calls
  refine ⟨hiff, fun hpatient before id during after key hcalls hid hawaits hnew => ?_⟩
  have hnumbered := (Numbered.opened ids).afterAll settings before
  have hcoherent := hiff.2 hpatient before _ hcalls
  obtain ⟨job, hjob, hrests⟩ := hcoherent.rests_cancel settings hnumbered hid hawaits
  rw [afterAll_append] at hnew ⊢
  have hlater := hrests.afterAll settings (hnumbered.after settings (.cancel id)) hnew
  exact ⟨job, hjob, hlater.known, hlater.away⟩

/-- A job with the id `a` is submitted twice and then cancelled: the queue still has it. The worker
serves the cancelled job, which fails for want of data. -/
theorem cancelled_then_served :
    let submit := Call.submit (.object [("job_id", .string "a")])
    let s := fun calls => (Store.opened toString).afterAll {} calls
    let twice := [submit, submit, .cancel (.string "a")]
    ¬(s [submit, submit]).Coherent ∧
      ((s twice).job? (.text "a")).map Job.status = some .cancelled ∧
      (s twice).waiting.map Ticket.key = [.text "a"] ∧
      ((s (twice ++ [.turn])).job? (.text "a")).map Job.status = some .failed := by
  refine ⟨fun h => ?_, by rfl, by rfl, by rfl⟩
  have hnodup := h.nodup
  revert hnodup
  decide

end Store

end StrategyGraph.Jobs
