/-!
# The order of doubles

Comparisons of doubles are those of the values they stand for, and a NaN compares with nothing.

* `not_lt_of_le` : if a double is at most another one, then that one is not less;
* `isFinite_of_le_of_lt` : what lies between a finite double and any other is finite.
-/

namespace StrategyGraph.Binary64

open Float.Model (UnpackedFloat)

/-- The order in which two doubles stand; none if one of them is a NaN. -/
def order? (x y : Float) : Option Ordering := x.toModel.unpack.compare y.toModel.unpack

theorem lt_iff {x y : Float} : x < y ↔ order? x y = some .lt := by
  have hlt : x < y ↔ decide (x.toModel < y.toModel) = true := Iff.rfl
  have hmodel : x.toModel < y.toModel ↔ (order? x y == some .lt) = true := Iff.rfl
  rw [hlt, decide_eq_true_iff, hmodel, beq_iff_eq]

theorem le_iff {x y : Float} : x ≤ y ↔ (order? x y).any Ordering.isLE = true := by
  have hle : x ≤ y ↔ decide (x.toModel ≤ y.toModel) = true := Iff.rfl
  rw [hle, decide_eq_true_iff]
  rfl

theorem order?_swap (x y : Float) : order? y x = (order? x y).map Ordering.swap := by
  have hfinite : ∀ (m n : Nat) (d e : Int), ((compare d e).then (compare m n)).swap =
      (compare e d).then (compare n m) := by
    intro m n d e
    rw [Ordering.swap_then, Int.compare_swap, Nat.compare_swap]
  rw [order?, order?]
  cases x.toModel.unpack with
  | notANumber => cases y.toModel.unpack <;> rfl
  | infinity s =>
    cases y.toModel.unpack with
    | infinity t => cases s <;> cases t <;> rfl
    | _ => cases s <;> rfl
  | zero s =>
    cases y.toModel.unpack with
    | notANumber | zero => rfl
    | infinity t | finite t => cases t <;> rfl
  | finite s m e =>
    cases y.toModel.unpack with
    | notANumber => rfl
    | zero => cases s <;> rfl
    | infinity t => cases t <;> rfl
    | finite t n d =>
      cases s with
      | positive =>
        cases t with
        | positive => exact congrArg some (hfinite ..).symm
        | negative => rfl
      | negative =>
        cases t with
        | positive => rfl
        | negative => exact congrArg (fun o : Ordering => some o.swap) (hfinite ..).symm

theorem not_lt_of_le {x y : Float} (h : x ≤ y) : ¬y < x := by
  rw [lt_iff, order?_swap]
  rw [le_iff] at h
  intro hlt
  cases horder : order? x y with
  | none => simp [horder] at hlt
  | some o => cases o <;> simp [horder] at h hlt

theorem le_of_lt {x y : Float} (h : x < y) : x ≤ y := by
  rw [le_iff, lt_iff.1 h]
  rfl

theorem isFinite_of_le_of_lt {x y z : Float} (hx : x.isFinite = true) (h : x ≤ y) (h' : y < z) :
    y.isFinite = true := by
  have hmodel : ∀ w : Float, w.isFinite = w.toModel.unpack.isFinite := fun _ => rfl
  rw [hmodel] at hx ⊢
  rw [le_iff, order?] at h
  rw [lt_iff, order?] at h'
  cases hy : y.toModel.unpack with
  | zero | finite => rfl
  | notANumber =>
    rw [hy] at h'
    cases h'
  | infinity s =>
    rw [hy] at h h'
    cases s with
    | positive =>
      have hgreatest : ∀ u, (UnpackedFloat.infinity .positive).compare u ≠ some .lt := by
        intro u
        cases u with
        | infinity t => cases t <;> decide
        | zero | finite | notANumber =>
          intro h
          cases h
      exact absurd h' (hgreatest _)
    | negative =>
      have hleast : ∀ u : UnpackedFloat, u.isFinite = true →
          (u.compare (.infinity .negative)).any Ordering.isLE = false := by
        intro u hu
        cases u with
        | infinity | notANumber => cases hu
        | zero | finite => rfl
      rw [hleast _ hx] at h
      cases h

end StrategyGraph.Binary64
