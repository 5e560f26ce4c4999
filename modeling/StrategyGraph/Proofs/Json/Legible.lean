import StrategyGraph.Json.Reading
import StrategyGraph.Proofs.Fault

/-!
# Values that can be read

Most values of a payload can be taken for a number, a list or a key, or for none; these are the ones
that end a reading with a fault.

* `Json.IsTooLarge` : integers beyond all doubles, the only values that cannot be taken for a number
  or for none (`Json.succeeds_double?`);
* `Json.IsListing` and `Json.IsNested` : values that have items, and values that cannot be keys;
* `UntilFound` : values of which the first one that serves is looked for.
-/

namespace StrategyGraph

namespace Json

variable {j : Json}

/-- The value is an integer beyond all doubles. -/
def IsTooLarge (j : Json) : Prop := ∃ n : Int, j = ofInt n ∧ (Binary64.ofInt n).isInf = true

theorem toFloat_eq_integerTooLarge : j.toFloat = .error .integerTooLarge ↔ j.IsTooLarge := by
  constructor
  · intro h
    unfold toFloat at h
    split at h
    · cases h
    · next n =>
      cases n with
      | float x => cases h
      | int n =>
        rw [Number.toFloat] at h
        split at h
        · next hinf => exact ⟨n, rfl, hinf⟩
        · cases h
    · split at h <;> cases h
    · cases h
  · rintro ⟨n, rfl, hinf⟩
    simp [toFloat, Number.toFloat, hinf]

/-- The value as a double; none when it is no number. -/
def double? (j : Json) : Except Fault (Option Float) :=
  match j.toFloat with
  | .error .integerTooLarge => .error .integerTooLarge
  | .error _ => .ok none
  | .ok x => .ok (some x)

theorem succeeds_double? : Succeeds j.double? ↔ ¬j.IsTooLarge := by
  rw [double?, ← toFloat_eq_integerTooLarge]
  cases j.toFloat with
  | error fault => cases fault <;> simp
  | ok x => simp

theorem double?_eq_some {x : Float} : j.double? = .ok (some x) ↔ j.toFloat = .ok x := by
  rw [double?]
  cases j.toFloat with
  | error fault => cases fault <;> simp
  | ok y => simp

/-- The value stands for a finite number. -/
def IsFinite (j : Json) : Prop := ∃ x, j.finite? = .ok (some x)

theorem succeeds_finite? : Succeeds j.finite? ↔ ¬j.IsTooLarge := by
  have hlarge : ∀ k : Json, (∀ n, k ≠ ofInt n) → ¬k.IsTooLarge := by
    rintro k hk ⟨n, rfl, -⟩
    exact hk n rfl
  cases j with
  | number n =>
    rw [← toFloat_eq_integerTooLarge]
    change Succeeds (n.toFloat.map _) ↔ n.toFloat ≠ _
    rw [succeeds_map]
    cases n with
    | float x => simp [Number.toFloat]
    | int n =>
      rw [Number.toFloat]
      split <;> simp
  | string s =>
    refine iff_of_true ?_ (hlarge _ (by simp))
    rw [finite?, number?]
    cases Decimal.readFloat s with
    | none => exact succeeds_ok _
    | some x => exact succeeds_ok _
  | _ => exact iff_of_true (succeeds_ok _) (hlarge _ (by simp))

/-- If the value counts as given, then it is a list, a text or an object. -/
def IsListing (j : Json) : Prop :=
  j.isTruthy = true →
    (∃ items, j = .array items) ∨ (∃ s, j = .string s) ∨ ∃ fields, j = .object fields

theorem succeeds_itemsIfAny : Succeeds j.itemsIfAny ↔ j.IsListing := by
  rw [itemsIfAny, IsListing]
  split
  · next htruthy =>
    cases j <;> simp [items, htruthy]
  · next hfalsy => simp [hfalsy]

theorem length_of_items {items : List Json} (h : j.items = .ok items) :
    j.length = .ok items.length := by
  cases j with
  | array | string | object =>
    cases h
    simp [length, String.length_toList]
  | null | bool | number => cases h

/-- The value is a list or an object. -/
def IsNested (j : Json) : Prop := (∃ items, j = .array items) ∨ ∃ fields, j = .object fields

theorem succeeds_requireKey : Succeeds j.requireKey ↔ ¬j.IsNested := by
  cases j <;> simp [requireKey, IsNested]

end Json

/-! ### The first of several -/

section UntilFound

variable {α : Type} {fits found : α → Prop}

/-- Each item fits, up to the first one that is found. -/
def UntilFound (fits found : α → Prop) : List α → Prop
  | [] => True
  | a :: as => fits a ∧ (¬found a → UntilFound fits found as)

theorem UntilFound.of_forall {as : List α} (h : ∀ a ∈ as, fits a) : UntilFound fits found as := by
  induction as with
  | nil => trivial
  | cons a as ih =>
    rw [List.forall_mem_cons] at h
    exact ⟨h.1, fun _ => ih h.2⟩

theorem untilFound_map {β : Type} {f : β → α} {bs : List β} :
    UntilFound fits found (bs.map f) ↔
      UntilFound (fun b => fits (f b)) (fun b => found (f b)) bs := by
  induction bs with
  | nil => simp [UntilFound]
  | cons b bs ih => simp [UntilFound, ih]

theorem succeeds_firstOf {β : Type} {x : Except Fault (Option α)}
    {next : Option α → Except Fault β} (hfound : ∀ a, Succeeds (next (some a))) :
    Succeeds (x >>= next) ↔ Succeeds x ∧ ((¬∃ a, x = .ok (some a)) → Succeeds (next none)) := by
  rw [succeeds_bind]
  refine and_congr_right fun ⟨r, hr⟩ => ?_
  cases r with
  | none => simp [hr]
  | some a => simp [hr, hfound]

end UntilFound

end StrategyGraph
