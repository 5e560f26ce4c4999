import StrategyGraph.Jobs.Store
import StrategyGraph.Proofs.Fault
import StrategyGraph.Proofs.Keyed

/-!
# What happens to jobs in a store

Submitting, cancelling and serving change one job at a time, which is found under its key.

* `Store.Sets` : a store differs from another one in the job with one key; `Store.sets_enter` and
  `Store.job?_update` : submissions and changes do that;
* `Store.Numbered` : jobs are told apart by their numbers, so that a change of the job with a number
  sets one job (`Store.Numbered.sets_update`);
* `Store.submit_ok` and `Store.cancel_cases` : what a submission and a cancellation come to.
-/

namespace StrategyGraph.Jobs

open Worker (Message)

variable {s s' : Store} {job : Job} {key : Key} {t : Ticket} {number : Nat} {change : Job → Job}

/-! ### Jobs -/

namespace Job

@[simp]
theorem key_record (message : Message) : (job.record message).key = job.key := by
  cases message <;> rfl

@[simp]
theorem number_record (message : Message) : (job.record message).number = job.number := by
  cases message <;> rfl

@[simp]
theorem request_record (message : Message) : (job.record message).request = job.request := by
  cases message <;> rfl

theorem status_record {message : Message} (h : message.isTerminal = false) :
    (job.record message).status = job.status := by
  cases message with
  | started => rfl
  | complete result => cases h
  | error problem => cases h

theorem isFinal_record {message : Message} (h : message.isTerminal = true) :
    (job.record message).status.isFinal = true := by
  cases message with
  | started => cases h
  | complete result =>
    show (statusOf result).isFinal = true
    unfold statusOf
    split <;> rfl
  | error problem => rfl

end Job

theorem find?_put (job : Job) (jobs : List Job) (key : Key) :
    (put job jobs).find? (fun other => other.key = key) =
      if key = job.key then some job else jobs.find? fun other => other.key = key := by
  induction jobs with
  | nil => simp [put, eq_comm]
  | cons other jobs ih =>
    rw [put]
    by_cases hother : other.key = job.key
    · by_cases hkey : key = job.key
      · simp [hother, hkey]
      · simp [hother, hkey, Ne.symm hkey]
    · rw [if_neg hother]
      by_cases hkey : other.key = key
      · simp [hkey, hkey ▸ hother]
      · simpa [hkey] using ih

/-! ### Keys -/

theorem Key.of?_eq_text {id : Json} {text : String} :
    Key.of? id = some (.text text) ↔ id = .string text := by
  cases id with
  | string s => simp [Key.of?]
  | null | bool b | array items | object fields => simp [Key.of?]
  | number n =>
    refine iff_of_false (fun h => ?_) (fun h => by cases h)
    cases n with
    | int n => cases h
    | float x =>
      simp only [Key.of?, Key.ofNumber, Option.some.injEq] at h
      split at h
      · cases h
      · split at h <;> cases h

theorem Ticket.require_eq_ok {id : Json} (h : Ticket.require id = .ok t) :
    t.id = id ∧ Key.of? t.id = some t.key := by
  rw [Ticket.require, Ticket.of?] at h
  cases hkey : Key.of? id with
  | none => simp [hkey] at h
  | some key =>
    rw [hkey] at h
    obtain rfl : ⟨id, key⟩ = t := Except.ok.inj h
    exact ⟨rfl, hkey⟩

/-! ### Stores -/

namespace Store

/-- The second store has a job under a key and else the jobs of the first one. -/
def Sets (s s' : Store) (key : Key) (job : Job) : Prop :=
  ∀ other, s'.job? other = if other = key then some job else s.job? other

namespace Sets

variable (h : s.Sets s' key job)
include h

theorem self : s'.job? key = some job := by rw [h key, if_pos rfl]

theorem of_ne {other : Key} (hother : other ≠ key) : s'.job? other = s.job? other := by
  rw [h other, if_neg hother]

/-- A job of the second store is the one that was set or one of the first store. -/
theorem cases {other : Key} {found : Job} (hfound : s'.job? other = some found) :
    other = key ∧ found = job ∨ other ≠ key ∧ s.job? other = some found := by
  by_cases hother : other = key
  · exact .inl ⟨hother, Option.some.inj (hfound.symm.trans (hother ▸ h.self))⟩
  · exact .inr ⟨hother, h.of_ne hother ▸ hfound⟩

end Sets

theorem sets_enter : s.Sets (s.enter job) job.key job := find?_put job s.jobs

theorem job?_update (h : ∀ job, (change job).key = job.key) :
    (s.update number change).job? key =
      (s.job? key).map fun job => if job.number = number then change job else job := by
  refine find?_key_map fun job => ?_
  split
  · exact h job
  · rfl

theorem exists_of_job?_update (hkey : ∀ job, (change job).key = job.key)
    (hnumber : ∀ job, (change job).number = job.number)
    (h : (s.update number change).job? key = some job) :
    ∃ found, s.job? key = some found ∧ found.number = job.number := by
  rw [job?_update hkey] at h
  obtain ⟨found, hfound, rfl⟩ := Option.map_eq_some_iff.1 h
  refine ⟨found, hfound, ?_⟩
  split
  · exact (hnumber found).symm
  · rfl

/-- Jobs are told apart by their numbers, and the next submission has a new one. -/
structure Numbered (s : Store) : Prop where
  below : ∀ key job, s.job? key = some job → job.number < s.submitted
  distinct : ∀ key key' job job', s.job? key = some job → s.job? key' = some job' →
    job.number = job'.number → key = key'

namespace Numbered

theorem opened (ids : Nat → String) : (Store.opened ids).Numbered :=
  ⟨by simp [job?, Store.opened], by simp [job?, Store.opened]⟩

theorem of_eq (hs : s.Numbered) (hjobs : s'.jobs = s.jobs)
    (hsubmitted : s'.submitted = s.submitted) : s'.Numbered := by
  have hjob : s'.job? = s.job? := funext fun key => by rw [job?, job?, hjobs]
  constructor
  · rw [hjob, hsubmitted]
    exact hs.below
  · rw [hjob]
    exact hs.distinct

variable (hs : s.Numbered)
include hs

/-- The number of a job is as good as its key, so a change of the job with a number sets one job. -/
theorem sets_update (hjob : s.job? key = some job) (hchange : ∀ job, (change job).key = job.key) :
    s.Sets (s.update job.number change) key (change job) := by
  intro other
  rw [job?_update hchange]
  by_cases hother : other = key
  · simp [hother, hjob]
  · cases hfound : s.job? other with
    | none => simp [hother]
    | some found =>
      have hnumber : found.number ≠ job.number := fun hnumber =>
        hother (hs.distinct other key found job hfound hjob hnumber)
      simp [hother, hnumber]

theorem update (hkey : ∀ job, (change job).key = job.key)
    (hnumber : ∀ job, (change job).number = job.number) : (s.update number change).Numbered := by
  constructor
  · intro key job hjob
    obtain ⟨found, hfound, hsame⟩ := exists_of_job?_update hkey hnumber hjob
    exact hsame ▸ hs.below key found hfound
  · intro key key' job job' hjob hjob' heq
    obtain ⟨found, hfound, hsame⟩ := exists_of_job?_update hkey hnumber hjob
    obtain ⟨found', hfound', hsame'⟩ := exists_of_job?_update hkey hnumber hjob'
    exact hs.distinct key key' found found' hfound hfound' (by rw [hsame, hsame', heq])

end Numbered

theorem awaits_iff : s.awaits key = true ↔ key ∈ s.waiting.map Ticket.key := by
  simp [awaits]

theorem waiting_unqueue : (s.unqueue key).waiting.map Ticket.key =
    (s.waiting.map Ticket.key).erase key := by
  rw [List.erase_eq_eraseP', List.eraseP_map]
  rfl

theorem mem_unflag {u : Ticket} : u ∈ (s.unflag key).stopping ↔ u ∈ s.stopping ∧ u.key ≠ key := by
  simp [unflag]

theorem flag_eq (s : Store) (t : Ticket) :
    ∃ stopping, s.flag t = { s with stopping := stopping } := by
  unfold flag
  split
  · exact ⟨s.stopping, rfl⟩
  · exact ⟨s.stopping ++ [t], rfl⟩

theorem isFlagged_flag :
    (s.flag t).isFlagged key = true ↔ s.isFlagged key = true ∨ t.key = key := by
  unfold flag
  split
  · next hflagged =>
    refine ⟨.inl, fun h => h.elim id ?_⟩
    rintro rfl
    exact hflagged
  · simp [isFlagged]

theorem isFlagged_unflag {other : Key} :
    (s.unflag other).isFlagged key = true ↔ s.isFlagged key = true ∧ key ≠ other := by
  simp only [isFlagged, List.any_eq_true, mem_unflag, decide_eq_true_eq]
  constructor
  · rintro ⟨u, ⟨hu, hother⟩, rfl⟩
    exact ⟨⟨u, hu, rfl⟩, hother⟩
  · rintro ⟨⟨u, hu, rfl⟩, hother⟩
    exact ⟨u, ⟨hu, hother⟩, rfl⟩

theorem identify_snd (request : Fields) :
    ∃ issued, (s.identify request).2 = { s with issued := issued } := by
  unfold identify
  dsimp only
  split
  · exact ⟨s.issued, rfl⟩
  · exact ⟨s.issued + 1, rfl⟩

/-- A submission that is not refused enters a queued job, numbered on from the jobs before. -/
theorem submit_ok {request : Json} (h : s.submit request = .ok (job, s')) :
    s'.waiting = s.waiting ++ [job.ticket] ∧ s'.stopping = s.stopping ∧
      s'.submitted = s.submitted + 1 ∧
      s.Sets s' job.key job ∧ job.number = s.submitted ∧ job.status = .queued := by
  obtain ⟨fields, -, h⟩ := bind_eq_ok.1 h
  obtain ⟨issued, hissued⟩ := s.identify_snd fields
  cases hidentify : s.identify fields with
  | mk id given =>
    rw [hidentify] at h hissued
    subst hissued
    obtain ⟨ticket, -, h⟩ := bind_eq_ok.1 h
    cases h
    exact ⟨rfl, rfl, rfl, sets_enter, rfl, rfl⟩

/-- A submission has a number of its own. -/
theorem Numbered.submit (hs : s.Numbered) {request : Json} (h : s.submit request = .ok (job, s')) :
    s'.Numbered := by
  obtain ⟨-, -, hsubmitted, hsets, hnumber, -⟩ := submit_ok h
  constructor
  · intro key found hfound
    rcases hsets.cases hfound with ⟨rfl, rfl⟩ | ⟨-, hbefore⟩
    · omega
    · have := hs.below key found hbefore
      omega
  · intro key key' found found' hfound hfound' heq
    rcases hsets.cases hfound with ⟨rfl, rfl⟩ | ⟨-, hbefore⟩
    · rcases hsets.cases hfound' with ⟨rfl, -⟩ | ⟨-, hbefore'⟩
      · rfl
      · have := hs.below key' found' hbefore'
        omega
    · rcases hsets.cases hfound' with ⟨rfl, rfl⟩ | ⟨-, hbefore'⟩
      · have := hs.below key found hbefore
        omega
      · exact hs.distinct key key' found found' hbefore hbefore' heq

/-- A submission that is not refused is an object, and nothing has become of its job yet. -/
theorem submit_new {request : Json} (h : s.submit request = .ok (job, s')) :
    request = .object job.request ∧ job.messages = [] ∧ job.result = none ∧ job.error = none := by
  obtain ⟨fields, hfields, h⟩ := bind_eq_ok.1 h
  obtain ⟨ticket, -, h⟩ := bind_eq_ok.1 h
  cases h
  cases request with
  | object fields' =>
    cases hfields
    exact ⟨rfl, rfl, rfl, rfl⟩
  | null | bool b | number n | string text | array items => cases hfields

/-- A job is entered under the key of its id: the one that its request gives, or a new one. -/
theorem submit_id {request : Json} (h : s.submit request = .ok (job, s')) :
    job.id = (s.identify job.request).1 ∧ Key.of? job.id = some job.key := by
  obtain ⟨fields, -, h⟩ := bind_eq_ok.1 h
  obtain ⟨issued, hissued⟩ := s.identify_snd fields
  cases hidentify : s.identify fields with
  | mk id given =>
    rw [hidentify] at h hissued
    subst hissued
    obtain ⟨ticket, hticket, h⟩ := bind_eq_ok.1 h
    cases h
    rw [hidentify]
    exact Ticket.require_eq_ok hticket

theorem cancelTicket_of_awaits (hjob : s.job? t.key = some job)
    (hfinal : job.status.isFinal = false) (hawaits : s.awaits t.key = true) :
    (s.cancelTicket t).2 = (s.unqueue t.key).update job.number Job.cancel := by
  simp [cancelTicket, hjob, hfinal, hawaits]

theorem cancelTicket_of_not_awaits (hawaits : s.awaits t.key = false) :
    (s.cancelTicket t).2 = s ∨
      ∃ job, s.job? t.key = some job ∧ job.status.isFinal = false ∧
        (s.cancelTicket t).2 = s.flag t := by
  cases hjob : s.job? t.key with
  | none => exact .inl (by simp [cancelTicket, hjob])
  | some job =>
    cases hfinal : job.status.isFinal with
    | true => exact .inl (by simp [cancelTicket, hjob, hfinal])
    | false => exact .inr ⟨job, rfl, hfinal, by simp [cancelTicket, hjob, hfinal, hawaits]⟩

theorem cancel_of_key {id : Json} (h : Key.of? id = some key) :
    s.cancel id = .ok (s.cancelTicket ⟨id, key⟩) := by
  have hrequire : id.requireKey = .ok () := by
    cases id with
    | null | array items | object fields => cases h
    | bool b | number n | string text => rfl
  have hticket : Ticket.of? id = some ⟨id, key⟩ := by rw [Ticket.of?, h, Option.map_some]
  rw [cancel, hrequire, cancelKnown, hticket]
  rfl

theorem cancel_of_no_key {id : Json} (h : Key.of? id = none) {r : Bool × Store}
    (hcancel : s.cancel id = .ok r) : r = (false, s) := by
  obtain ⟨-, -, hcancel⟩ := bind_eq_ok.1 hcancel
  have hticket : Ticket.of? id = none := by rw [Ticket.of?, h, Option.map_none]
  rw [cancelKnown, hticket] at hcancel
  exact (Except.ok.inj hcancel).symm

/-- A cancellation does nothing, flags a job that does not wait, or takes one out of the queue. -/
theorem cancel_cases {id : Json} {r : Bool × Store} (h : s.cancel id = .ok r) :
    r.2 = s ∨
      (∃ t job, Key.of? id = some t.key ∧ s.awaits t.key = false ∧ s.job? t.key = some job ∧
        job.status.isFinal = false ∧ r.2 = s.flag t) ∨
      ∃ key job, Key.of? id = some key ∧ s.awaits key = true ∧ s.job? key = some job ∧
        job.status.isFinal = false ∧ r.2 = (s.unqueue key).update job.number Job.cancel := by
  cases hkey : Key.of? id with
  | none => exact .inl (congrArg Prod.snd (cancel_of_no_key hkey h))
  | some key =>
    obtain rfl := Except.ok.inj ((cancel_of_key hkey).symm.trans h)
    cases hawaits : s.awaits key with
    | false =>
      rcases cancelTicket_of_not_awaits (t := ⟨id, key⟩) hawaits with
        hsame | ⟨job, hjob, hfinal, hflag⟩
      · exact .inl hsame
      · exact .inr (.inl ⟨⟨id, key⟩, job, rfl, hawaits, hjob, hfinal, hflag⟩)
    | true =>
      cases hjob : s.job? key with
      | none => exact .inl (by simp [cancelTicket, hjob])
      | some job =>
        cases hfinal : job.status.isFinal with
        | true => exact .inl (by simp [cancelTicket, hjob, hfinal])
        | false =>
          exact .inr (.inr ⟨key, job, rfl, hawaits, hjob, hfinal,
            cancelTicket_of_awaits hjob hfinal hawaits⟩)

end Store

end StrategyGraph.Jobs
