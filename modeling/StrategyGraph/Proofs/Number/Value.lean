import Mathlib.Algebra.Order.Field.Power
import Mathlib.Algebra.Order.Field.Rat
import Mathlib.Tactic.GCongr
import Mathlib.Tactic.Positivity
import Mathlib.Tactic.Ring
import StrategyGraph.Proofs.Number.Order
import StrategyGraph.Proofs.Number.Parts

/-!
# Values of doubles

A finite double stands for a fraction: its mantissa times a power of two, with its sign.

* `value` is this fraction;
* `order?_eq_compare` : **finite doubles are in the order of their values**, since all mantissas
  have the same length but those with the least exponent, so that of two doubles of the same sign
  the exponents are compared first; `le_iff_value_le` and `lt_iff_value_lt` say the same of `≤` and
  of `<`.
-/

namespace StrategyGraph.Binary64

open Float.Model (UnpackedFloat)
open Float.Model.UnpackedFloat (Sign)

namespace Parts

/-- The size of a double, whatever its sign. -/
def magnitude (p : Parts) : ℚ := p.mantissa * 2 ^ p.exponent

/-- The fraction with these parts. -/
def value (p : Parts) : ℚ := if p.negative then -p.magnitude else p.magnitude

/-- The mantissa is as long as mantissas are, unless the exponent is the least one. -/
structure Canonical (p : Parts) : Prop where
  /-- There is no smaller exponent. -/
  least : -1074 ≤ p.exponent
  /-- There is no longer mantissa. -/
  short : p.mantissa < 2 ^ 53
  /-- A mantissa is short only with the least exponent. -/
  long : p.exponent = -1074 ∨ 2 ^ 52 ≤ p.mantissa

theorem canonical_parts (x : Float) : (parts x).Canonical := by
  refine ⟨?_, mantissa_lt x, ?_⟩
  · simp only [parts]
    split <;> omega
  · have htwo : twoTo 52 = 2 ^ 52 := rfl
    simp only [parts]
    split
    · exact .inl rfl
    · exact .inr (by omega)

variable {p q : Parts}

theorem magnitude_lt_of_exponent_lt (hp : p.Canonical) (hq : q.Canonical)
    (h : p.exponent < q.exponent) : p.magnitude < q.magnitude := by
  have hlong : 2 ^ 52 ≤ q.mantissa := hq.long.resolve_left fun hleast => by
    have := hp.least
    omega
  have hshort : (p.mantissa : ℚ) < 2 ^ 53 := by exact_mod_cast hp.short
  have hpower : (0 : ℚ) < 2 ^ p.exponent := by positivity
  calc p.magnitude
      _ < 2 ^ 53 * 2 ^ p.exponent := mul_lt_mul_of_pos_right hshort hpower
      _ = 2 ^ 52 * 2 ^ (p.exponent + 1) := by
        rw [zpow_add_one₀ two_ne_zero]
        ring
      _ ≤ 2 ^ 52 * 2 ^ q.exponent := by
        gcongr
        · exact one_le_two
        · exact h
      _ ≤ q.magnitude := by
        unfold magnitude
        gcongr
        exact_mod_cast hlong

/-- Exponents are compared first, then mantissas. -/
theorem compare_magnitude (hp : p.Canonical) (hq : q.Canonical) :
    (compare p.exponent q.exponent).then (compare p.mantissa q.mantissa) =
      compare p.magnitude q.magnitude := by
  rcases lt_trichotomy p.exponent q.exponent with h | h | h
  · rw [compare_lt_iff_lt.2 h, compare_lt_iff_lt.2 (magnitude_lt_of_exponent_lt hp hq h)]
    rfl
  · have hpower : (0 : ℚ) < 2 ^ q.exponent := by positivity
    rw [compare_eq_iff_eq.2 h, magnitude, magnitude, h]
    rcases lt_trichotomy p.mantissa q.mantissa with h | h | h
    · rw [compare_lt_iff_lt.2 h,
        compare_lt_iff_lt.2 (mul_lt_mul_of_pos_right (Nat.cast_lt.2 h) hpower)]
      rfl
    · rw [h, compare_eq_iff_eq.2 rfl, compare_eq_iff_eq.2 rfl]
      rfl
    · rw [compare_gt_iff_gt.2 h,
        compare_gt_iff_gt.2 (mul_lt_mul_of_pos_right (Nat.cast_lt.2 h) hpower)]
      rfl
  · rw [compare_gt_iff_gt.2 h, compare_gt_iff_gt.2 (magnitude_lt_of_exponent_lt hq hp h)]
    rfl

end Parts

/-- The fraction that a finite double stands for. -/
def value (x : Float) : ℚ := (parts x).value

variable {x y : Float} {s : Sign} {m : Nat} {e : Int}

theorem value_of_unpack_zero (h : x.toModel.unpack = .zero s) : value x = 0 := by
  simp [value, Parts.value, Parts.magnitude, mantissa_of_unpack_zero h]

theorem value_of_unpack {hm : 0 < m} (h : x.toModel.unpack = .finite s m e hm) :
    value x = if isNegative s then -(parts x).magnitude else (parts x).magnitude := by
  rw [value, Parts.value, parts_of_unpack h]

theorem magnitude_pos {hm : 0 < m} (h : x.toModel.unpack = .finite s m e hm) :
    0 < (parts x).magnitude := by
  rw [parts_of_unpack h, Parts.magnitude]
  positivity

theorem compares_neg {o : Ordering} {a b : ℚ} (h : o.Compares a b) : o.swap.Compares (-a) (-b) := by
  cases o with
  | lt => exact neg_lt_neg h
  | eq => exact congrArg _ h
  | gt => exact neg_lt_neg h

/-- **Finite doubles are in the order of their values.** -/
theorem order?_eq_compare (hx : x.isFinite = true) (hy : y.isFinite = true) :
    order? x y = some (compare (value x) (value y)) := by
  suffices ∃ o, order? x y = some o ∧ o.Compares (value x) (value y) by
    obtain ⟨o, horder, ho⟩ := this
    rw [horder, (compare_iff _ _).2 ho]
  rw [order?]
  -- Only of two doubles with the same sign, and neither of them zero, magnitudes are compared.
  rcases exists_unpack hx with ⟨s, hs⟩ | ⟨s, m, e, hm, hs⟩ <;>
    rcases exists_unpack hy with ⟨t, ht⟩ | ⟨t, n, d, hn, ht⟩
  · rw [hs, ht, value_of_unpack_zero hs, value_of_unpack_zero ht]
    exact ⟨.eq, rfl, rfl⟩
  · have hpos := magnitude_pos ht
    rw [hs, ht, value_of_unpack_zero hs, value_of_unpack ht]
    cases t with
    | positive => exact ⟨.lt, rfl, hpos⟩
    | negative => exact ⟨.gt, rfl, neg_lt_zero.2 hpos⟩
  · have hpos := magnitude_pos hs
    rw [hs, ht, value_of_unpack_zero ht, value_of_unpack hs]
    cases s with
    | positive => exact ⟨.gt, rfl, hpos⟩
    | negative => exact ⟨.lt, rfl, neg_lt_zero.2 hpos⟩
  · have hxpos := magnitude_pos hs
    have hypos := magnitude_pos ht
    have hsize : ((compare e d).then (compare m n)).Compares (parts x).magnitude
        (parts y).magnitude := by
      have h := Parts.compare_magnitude (Parts.canonical_parts x) (Parts.canonical_parts y)
      rw [← compare_iff, ← h, parts_of_unpack hs, parts_of_unpack ht]
    rw [hs, ht, value_of_unpack hs, value_of_unpack ht]
    cases s with
    | positive =>
      cases t with
      | positive => exact ⟨_, rfl, hsize⟩
      | negative => exact ⟨.gt, rfl, (neg_lt_zero.2 hypos).trans hxpos⟩
    | negative =>
      cases t with
      | positive => exact ⟨.lt, rfl, (neg_lt_zero.2 hxpos).trans hypos⟩
      | negative => exact ⟨_, rfl, compares_neg hsize⟩

theorem le_iff_value_le (hx : x.isFinite = true) (hy : y.isFinite = true) :
    x ≤ y ↔ value x ≤ value y := by
  rw [le_iff, order?_eq_compare hx hy, Option.any_some, ← Ordering.ne_gt_iff_isLE]
  exact compare_le_iff_le

theorem lt_iff_value_lt (hx : x.isFinite = true) (hy : y.isFinite = true) :
    x < y ↔ value x < value y := by
  rw [lt_iff, order?_eq_compare hx hy, Option.some_inj, compare_lt_iff_lt]

theorem value_lt_of_not_le (hx : x.isFinite = true) (hy : y.isFinite = true) (h : ¬x ≤ y) :
    value y < value x :=
  not_le.1 ((le_iff_value_le hx hy).not.1 h)

end StrategyGraph.Binary64
