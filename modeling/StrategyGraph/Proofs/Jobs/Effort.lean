import StrategyGraph.Proofs.Jobs.Events
import StrategyGraph.Proofs.Routine.Course

/-!
# The worker comes to rest

How many steps the worker takes at most

* to serve the job with a key (`Store.effort`), which its steps do not change (`State.effort_work`);
* to be done with what it holds (`Stage.load`), which each of its steps lowers (`State.load_work`);
* to be done with all that waits, too (`State.burden`). **A worker that is left alone comes to rest**
  (`State.rests`).
-/

namespace StrategyGraph.Jobs

variable {settings : Settings} {σ : State} {key : Key} {stage : Stage}

/-- How many steps it takes at most to serve the job with a key. -/
def Store.effort (settings : Settings) (s : Store) (key : Key) : Nat :=
  ((s.job? key).map fun job => (Worker.serve settings (.object job.request)).depth).getD 0

/-- How many steps the worker takes at most until it is done with what it holds. -/
def Stage.load (effort : Key → Nat) : Stage → Nat
  | .idle => 0
  | .taken t => effort t.key + 2
  | .serving _ _ rest => rest.depth + 1

/-- How many steps the worker takes at most until nothing waits any more. -/
def State.burden (settings : Settings) (σ : State) : Nat :=
  σ.stage.load (σ.store.effort settings) +
    σ.store.waiting.foldr (fun t burden => σ.store.effort settings t.key + 3 + burden) 0

/-! ### What the worker holds -/

theorem Store.effort_update {s : Store} {number : Nat} {change : Job → Job}
    (hkey : ∀ job, (change job).key = job.key)
    (hrequest : ∀ job, (change job).request = job.request) :
    (s.update number change).effort settings = s.effort settings := by
  funext key
  rw [effort, effort, job?_update hkey, Option.map_map]
  congr 2
  funext job
  rw [Function.comp_apply]
  split
  · rw [hrequest]
  · rfl

theorem State.effort_work (settings : Settings) (σ : State) :
    (σ.next settings .work).store.effort settings = σ.store.effort settings := by
  have hworks := σ.works settings
  generalize σ.next settings .work = σ' at hworks
  cases hworks with
  | rest | take | drop | say | check | release => rfl
  | start => exact Store.effort_update (fun _ => rfl) fun _ => rfl
  | @send _ _ _ message =>
    exact Store.effort_update (fun job => job.key_record message) fun job =>
      job.request_record message

theorem Stage.load_congr {effort effort' : Key → Nat} (hheld : stage.held? = some key)
    (h : effort key = effort' key) : stage.load effort = stage.load effort' := by
  cases stage with
  | idle | serving t number rest => rfl
  | taken t =>
    obtain rfl : t.key = key := Option.some.inj hheld
    rw [load, load, h]

theorem State.load_work (settings : Settings) (hheld : σ.stage.held? = some key) :
    (σ.next settings .work).stage.load (σ.store.effort settings) <
      σ.stage.load (σ.store.effort settings) := by
  have hworks := σ.works settings
  generalize σ.next settings .work = σ' at hworks
  cases hworks with
  | rest | take => cases hheld
  | drop | release => exact Nat.succ_pos _
  | say | send => exact Nat.lt_succ_self _
  | check => exact Nat.succ_lt_succ (Routine.depth_resume_lt _ _)
  | start hjob =>
    rw [Stage.load, Stage.load, Store.effort, hjob]
    exact Nat.lt_succ_self _

/-! ### All that waits -/

theorem State.burden_work (settings : Settings) (σ : State) :
    (σ.next settings .work).burden settings ≤ σ.burden settings - 1 := by
  have hless : ∀ key, σ.stage.held? = some key →
      (σ.next settings .work).stage.load (σ.store.effort settings) <
        σ.stage.load (σ.store.effort settings) := fun _ => σ.load_work settings
  have hworks := σ.works settings
  rw [burden, burden, σ.effort_work]
  generalize σ.next settings .work = σ' at hworks hless
  cases hworks with
  | rest hwaiting =>
    simp only [hwaiting]
    exact Nat.zero_le _
  | @take s t waiting hwaiting =>
    simp only [hwaiting, List.foldr_cons, Stage.load]
    omega
  | start | drop | say | send | check | release =>
    exact Nat.le_sub_one_of_lt (Nat.add_lt_add_right (hless _ rfl) _)

theorem State.burden_eq_zero (h : σ.burden settings = 0) :
    σ.stage = .idle ∧ σ.store.waiting = [] := by
  obtain ⟨s, stage⟩ := σ
  rw [burden, Nat.add_eq_zero_iff] at h
  dsimp only at h ⊢
  constructor
  · cases stage with
    | idle => rfl
    | taken t | serving t number rest => cases h.1
  · cases hwaiting : s.waiting with
    | nil => rfl
    | cons t waiting =>
      rw [hwaiting, List.foldr_cons] at h
      omega

/-- **A worker that is left alone comes to rest**: nothing waits any more, and it holds nothing. -/
theorem State.rests {steps : Nat} (h : σ.burden settings ≤ steps) :
    (σ.run settings (List.replicate steps .work)).stage = .idle ∧
      (σ.run settings (List.replicate steps .work)).store.waiting = [] := by
  induction steps generalizing σ with
  | zero => exact burden_eq_zero (Nat.le_zero.1 h)
  | succ steps ih =>
    have hless := σ.burden_work settings
    exact ih (by omega)

end StrategyGraph.Jobs
