import StrategyGraph.Fault

/-!
# Computations that come to a value

A chain of computations that may fail comes to a value only if each of them does.

* `bind_eq_ok`, `bind_eq_error` and `run_bind_eq` take such chains apart, step by step;
* `Succeeds` : a computation comes to some value;
* `FailsOnly` : of two ways to fail, the inner one has a property;
* `Agree` : two computations fail alike or come to related values;
* `mapM_take` and `mapM_congr` : a list of values is computed item by item.
-/

namespace StrategyGraph

variable {ε ε' α β : Type}

theorem ok_bind (a : α) (next : α → Except ε β) : Except.ok a >>= next = next a := rfl

theorem bind_eq_ok {x : Except ε α} {next : α → Except ε β} {b : β} :
    x >>= next = .ok b ↔ ∃ a, x = .ok a ∧ next a = .ok b := by
  cases x with
  | ok a =>
    constructor
    · intro h
      exact ⟨a, rfl, h⟩
    · rintro ⟨_, ⟨⟩, h⟩
      exact h
  | error e =>
    constructor
    · intro h
      cases h
    · rintro ⟨_, ⟨⟩, -⟩

theorem map_eq_ok {x : Except ε α} {f : α → β} {b : β} :
    x.map f = .ok b ↔ ∃ a, x = .ok a ∧ f a = b := by
  cases x <;> simp [Except.map]

theorem bind_eq_error {x : Except ε α} {next : α → Except ε β} {e : ε} :
    x >>= next = .error e ↔ x = .error e ∨ ∃ a, x = .ok a ∧ next a = .error e := by
  cases x with
  | ok a =>
    refine ⟨fun h => .inr ⟨a, rfl, h⟩, ?_⟩
    rintro (⟨⟨⟩⟩ | ⟨_, ⟨⟩, h⟩)
    exact h
  | error e' =>
    refine ⟨fun h => .inl (congrArg Except.error (Except.error.inj h)), ?_⟩
    rintro (⟨⟨⟩⟩ | ⟨_, ⟨⟩, -⟩)
    rfl

theorem map_eq_error {x : Except ε α} {f : α → β} {e : ε} : x.map f = .error e ↔ x = .error e := by
  cases x <;> simp [Except.map]

theorem mapError_eq_ok {x : Except ε α} {f : ε → ε'} {a : α} :
    x.mapError f = .ok a ↔ x = .ok a := by
  constructor
  · intro h
    cases x with
    | ok b =>
      cases h
      rfl
    | error e => cases h
  · rintro rfl
    rfl

theorem exists_of_mapError {x : Except ε α} {f : ε → ε'} {e : ε'} (h : x.mapError f = .error e) :
    ∃ e', e = f e' := by
  cases x with
  | ok a => cases h
  | error e' => exact ⟨e', (Except.error.inj h).symm⟩

/-- Two ways to fail: a failure of the inner computation ends the chain, and a value goes on. -/
theorem run_bind_eq {x : ExceptT ε (Except ε') α} {next : α → ExceptT ε (Except ε') β}
    {r : Except ε β} :
    (x >>= next).run = .ok r ↔
      (∃ e, x.run = .ok (.error e) ∧ r = .error e) ∨
        ∃ a, x.run = .ok (.ok a) ∧ (next a).run = .ok r := by
  have hrun : (x >>= next).run = x.run >>= ExceptT.bindCont next := rfl
  rw [hrun, bind_eq_ok]
  constructor
  · rintro ⟨found, hx, h⟩
    cases found with
    | ok a => exact .inr ⟨a, hx, h⟩
    | error e => exact .inl ⟨e, hx, (Except.ok.inj h).symm⟩
  · rintro (⟨e, hx, rfl⟩ | ⟨a, hx, h⟩)
    · exact ⟨.error e, hx, rfl⟩
    · exact ⟨.ok a, hx, h⟩

/-- Two ways to fail: only a value of the inner computation goes on. -/
theorem run_bind_eq_ok {x : ExceptT ε (Except ε') α} {next : α → ExceptT ε (Except ε') β} {b : β} :
    (x >>= next).run = .ok (.ok b) ↔ ∃ a, x.run = .ok (.ok a) ∧ (next a).run = .ok (.ok b) := by
  rw [run_bind_eq]
  exact or_iff_right (by rintro ⟨e, -, ⟨⟩⟩)

/-- Two ways to fail: the inner computation fails, or what goes on with its value does. -/
theorem run_bind_eq_error {x : ExceptT ε (Except ε') α} {next : α → ExceptT ε (Except ε') β} {e : ε} :
    (x >>= next).run = .ok (.error e) ↔
      x.run = .ok (.error e) ∨ ∃ a, x.run = .ok (.ok a) ∧ (next a).run = .ok (.error e) := by
  rw [run_bind_eq]
  refine or_congr_left ⟨?_, fun h => ⟨e, h, rfl⟩⟩
  rintro ⟨e', h, ⟨⟩⟩
  exact h

theorem exists_ok_of_any {x : Except ε α} {p : α → Bool} (h : x.toOption.any p = true) :
    ∃ a, x = .ok a ∧ p a = true := by
  cases x with
  | ok a => exact ⟨a, rfl, h⟩
  | error e => cases h

/-! ### Some value -/

/-- The computation comes to a value. -/
def Succeeds (x : Except ε α) : Prop := ∃ a, x = .ok a

@[simp] theorem succeeds_ok (a : α) : Succeeds (.ok a : Except ε α) := ⟨a, rfl⟩

@[simp] theorem not_succeeds_error (e : ε) : ¬Succeeds (.error e : Except ε α) := by
  rintro ⟨a, h⟩
  cases h

theorem succeeds_bind {x : Except ε α} {next : α → Except ε β} :
    Succeeds (x >>= next) ↔ Succeeds x ∧ ∀ a, x = .ok a → Succeeds (next a) := by
  constructor
  · rintro ⟨b, h⟩
    obtain ⟨a, rfl, h⟩ := bind_eq_ok.1 h
    exact ⟨⟨a, rfl⟩, fun a' ha' => Except.ok.inj ha' ▸ ⟨b, h⟩⟩
  · rintro ⟨⟨a, rfl⟩, h⟩
    exact h a rfl

/-- Whether the rest succeeds does not depend on the value. -/
theorem succeeds_bind_and {x : Except ε α} {next : α → Except ε β} {p q : Prop}
    (hx : Succeeds x ↔ p) (hnext : p → ∀ a, Succeeds (next a) ↔ q) :
    Succeeds (x >>= next) ↔ p ∧ q := by
  rw [succeeds_bind, hx]
  refine and_congr_right fun hp => ?_
  obtain ⟨a, rfl⟩ := hx.2 hp
  simpa only [Except.ok.injEq, forall_eq'] using hnext hp a

theorem succeeds_bind_iff {x : Except ε α} {next : α → Except ε β} (h : ∀ a, Succeeds (next a)) :
    Succeeds (x >>= next) ↔ Succeeds x :=
  succeeds_bind.trans (and_iff_left fun a _ => h a)

@[simp] theorem succeeds_map {x : Except ε α} {f : α → β} : Succeeds (x.map f) ↔ Succeeds x := by
  cases x <;> simp [Except.map]

/-- Two ways to fail: the outer computation goes on only with a value of the inner one. -/
theorem succeeds_run_bind {x : ExceptT ε (Except ε') α} {next : α → ExceptT ε (Except ε') β} :
    Succeeds (x >>= next).run ↔
      Succeeds x.run ∧ ∀ a, x.run = .ok (.ok a) → Succeeds (next a).run := by
  have hrun : (x >>= next).run = x.run >>= ExceptT.bindCont next := rfl
  rw [hrun, succeeds_bind]
  refine and_congr_right fun _ => ⟨fun h a ha => h (.ok a) ha, fun h r hr => ?_⟩
  cases r with
  | ok a => exact h a hr
  | error e => exact succeeds_ok _

/-! ### Two ways to fail -/

/-- The inner computation fails only in ways that have the property. -/
def FailsOnly (p : ε → Prop) (x : ExceptT ε (Except ε') α) : Prop :=
  ∀ e, x.run = .ok (.error e) → p e

namespace FailsOnly

variable {p : ε → Prop}

theorem pure (a : α) : FailsOnly p (Pure.pure a : ExceptT ε (Except ε') α) := by
  intro e h
  cases h

theorem bind {x : ExceptT ε (Except ε') α} {next : α → ExceptT ε (Except ε') β}
    (hx : FailsOnly p x) (hnext : ∀ a, FailsOnly p (next a)) : FailsOnly p (x >>= next) := by
  intro e h
  obtain ⟨r, hr, h⟩ := bind_eq_ok.1 h
  cases r with
  | ok a => exact hnext a e h
  | error e' =>
    cases h
    exact hx e hr

end FailsOnly

/-! ### Two computations -/

/-- Both computations come to values that are related, or both fail, in related ways. -/
inductive Agree {ε' : Type} (E : ε → ε' → Prop) (R : α → β → Prop) :
    Except ε α → Except ε' β → Prop
  /-- Both come to a value. -/
  | ok {a : α} {b : β} (h : R a b) : Agree E R (.ok a) (.ok b)
  /-- Both fail. -/
  | error {e : ε} {e' : ε'} (h : E e e') : Agree E R (.error e) (.error e')

namespace Agree

variable {γ δ : Type} {R : α → β → Prop} {S : γ → δ → Prop}

theorem same (x : Except ε α) : Agree Eq Eq x x := by
  cases x with
  | ok a => exact .ok rfl
  | error e => exact .error rfl

theorem bind {E : ε → ε' → Prop} {x : Except ε α} {y : Except ε' β} {f : α → Except ε γ}
    {g : β → Except ε' δ} (h : Agree E R x y) (hnext : ∀ a b, R a b → Agree E S (f a) (g b)) :
    Agree E S (x >>= f) (y >>= g) := by
  cases h with
  | ok h => exact hnext _ _ h
  | error h => exact .error h

theorem map {E : ε → ε' → Prop} {x : Except ε α} {y : Except ε' β} {f : α → γ} {g : β → δ}
    (h : Agree E R x y) (hfg : ∀ a b, R a b → S (f a) (g b)) : Agree E S (x.map f) (y.map g) := by
  cases h with
  | ok h => exact .ok (hfg _ _ h)
  | error h => exact .error h

/-- The values are those that the computations come to. -/
theorem left {E : ε → ε' → Prop} {x : Except ε α} {y : Except ε' β} (h : Agree E R x y) :
    Agree E (fun a b => x = .ok a ∧ R a b) x y := by
  cases h with
  | ok h => exact .ok ⟨rfl, h⟩
  | error h => exact .error h

/-- What does not depend on how the values differ comes to the same. -/
theorem bind_eq {x : Except ε α} {y : Except ε β} {f : α → Except ε γ} {g : β → Except ε γ}
    (h : Agree Eq R x y) (hnext : ∀ a b, R a b → f a = g b) : x >>= f = y >>= g := by
  cases h with
  | ok h => exact hnext _ _ h
  | error h => exact congrArg Except.error h

theorem run_bind {φ : Type} {E : ε → ε' → Prop} {x : ExceptT ε (Except φ) α}
    {y : ExceptT ε' (Except φ) β} {f : α → ExceptT ε (Except φ) γ}
    {g : β → ExceptT ε' (Except φ) δ} (h : Agree Eq (Agree E R) x.run y.run)
    (hnext : ∀ a b, R a b → Agree Eq (Agree E S) (f a).run (g b).run) :
    Agree Eq (Agree E S) (x >>= f).run (y >>= g).run := by
  have hrun : Agree Eq (Agree E S) (x.run >>= ExceptT.bindCont f)
      (y.run >>= ExceptT.bindCont g) := by
    refine h.bind fun r r' hr => ?_
    cases hr with
    | ok hr => exact hnext _ _ hr
    | error hr => exact .ok (.error hr)
  exact hrun

theorem exists_ok {E : ε → ε' → Prop} {x : Except ε α} {y : Except ε' β} (h : Agree E R x y) {a : α}
    (ha : x = .ok a) : ∃ b, y = .ok b ∧ R a b := by
  subst ha
  cases h with
  | ok h => exact ⟨_, rfl, h⟩

/-- Computations that agree on what a function tells come to the same under it. -/
theorem map_eq {x : Except ε α} {y : Except ε β} {f : α → γ} {g : β → γ}
    (h : Agree Eq (fun a b => f a = g b) x y) : x.map f = y.map g := by
  cases h with
  | ok h => exact congrArg Except.ok h
  | error h => exact congrArg Except.error h

end Agree

/-! ### Lists -/

theorem mapM_cons_eq_ok {f : α → Except ε β} {x : α} {xs : List α} {ys : List β} :
    (x :: xs).mapM f = .ok ys ↔ ∃ z zs, f x = .ok z ∧ xs.mapM f = .ok zs ∧ ys = z :: zs := by
  rw [List.mapM_cons, bind_eq_ok]
  constructor
  · rintro ⟨z, hz, h⟩
    obtain ⟨zs, hzs, h⟩ := bind_eq_ok.1 h
    exact ⟨z, zs, hz, hzs, (Except.ok.inj h).symm⟩
  · rintro ⟨z, zs, hz, hzs, rfl⟩
    exact ⟨z, hz, bind_eq_ok.2 ⟨zs, hzs, rfl⟩⟩

theorem succeeds_mapM {f : α → Except ε β} {xs : List α} :
    Succeeds (xs.mapM f) ↔ ∀ x ∈ xs, Succeeds (f x) := by
  induction xs with
  | nil => exact iff_of_true ⟨[], rfl⟩ fun _ h => absurd h List.not_mem_nil
  | cons x xs ih =>
    rw [List.mapM_cons, List.forall_mem_cons]
    exact succeeds_bind_and Iff.rfl fun _ _ => (succeeds_bind_iff fun _ => succeeds_ok _).trans ih

/-- What a listed item gives is listed among the values. -/
theorem exists_mem_of_mapM {f : α → Except ε β} {xs : List α} {ys : List β} {x : α}
    (h : xs.mapM f = .ok ys) (hx : x ∈ xs) : ∃ y ∈ ys, f x = .ok y := by
  induction xs generalizing ys with
  | nil => cases hx
  | cons x' xs ih =>
    obtain ⟨z, zs, hz, hzs, rfl⟩ := mapM_cons_eq_ok.1 h
    rcases List.mem_cons.1 hx with rfl | hlater
    · exact ⟨z, List.mem_cons_self, hz⟩
    · obtain ⟨y, hy, hf⟩ := ih hzs hlater
      exact ⟨y, List.mem_cons_of_mem _ hy, hf⟩

theorem exists_of_mapM_error {f : α → Except ε β} {xs : List α} {e : ε}
    (h : xs.mapM f = .error e) : ∃ x ∈ xs, f x = .error e := by
  induction xs with
  | nil => cases h
  | cons x xs ih =>
    rw [List.mapM_cons, bind_eq_error] at h
    rcases h with hx | ⟨y, -, h⟩
    · exact ⟨x, List.mem_cons_self, hx⟩
    · rcases bind_eq_error.1 h with hxs | ⟨ys, -, ⟨⟩⟩
      obtain ⟨x', hx', he⟩ := ih hxs
      exact ⟨x', List.mem_cons_of_mem _ hx', he⟩

/-- What a function tells of the values another one tells of what they are computed from. -/
theorem map_eq_of_mapM {γ : Type} {f : α → Except ε β} {g : β → γ} {k : α → γ}
    (hgk : ∀ x y, f x = .ok y → g y = k x) {xs : List α} {ys : List β} (h : xs.mapM f = .ok ys) :
    ys.map g = xs.map k := by
  induction xs generalizing ys with
  | nil =>
    obtain rfl : [] = ys := Except.ok.inj h
    rfl
  | cons x xs ih =>
    obtain ⟨z, zs, hz, hzs, rfl⟩ := mapM_cons_eq_ok.1 h
    rw [List.map_cons, List.map_cons, hgk x z hz, ih hzs]

theorem length_of_mapM {f : α → Except ε β} {xs : List α} {ys : List β} (h : xs.mapM f = .ok ys) :
    ys.length = xs.length := by
  have hunit := map_eq_of_mapM (g := fun _ => ()) (k := fun _ => ()) (fun _ _ _ => rfl) h
  simpa using congrArg List.length hunit

theorem mapM_take {f : α → Except ε β} {xs : List α} {ys : List β} (h : xs.mapM f = .ok ys)
    (k : Nat) : (xs.take k).mapM f = .ok (ys.take k) := by
  induction xs generalizing ys k with
  | nil =>
    obtain rfl : [] = ys := Except.ok.inj h
    simp only [List.take_nil]
    rfl
  | cons x xs ih =>
    obtain ⟨z, zs, hz, hzs, rfl⟩ := mapM_cons_eq_ok.1 h
    cases k with
    | zero => rfl
    | succ k => exact mapM_cons_eq_ok.2 ⟨z, zs.take k, hz, ih hzs k, rfl⟩

theorem mapM_congr {f g : α → Except ε β} {change : β → β}
    (hfg : ∀ x y, f x = .ok y → g x = .ok (change y)) {xs : List α} {ys : List β}
    (h : xs.mapM f = .ok ys) : xs.mapM g = .ok (ys.map change) := by
  induction xs generalizing ys with
  | nil =>
    obtain rfl : [] = ys := Except.ok.inj h
    rfl
  | cons x xs ih =>
    obtain ⟨z, zs, hz, hzs, rfl⟩ := mapM_cons_eq_ok.1 h
    exact mapM_cons_eq_ok.2 ⟨_, _, hfg x z hz, ih hzs, rfl⟩

end StrategyGraph
