import StrategyGraph.Price.Bar
import StrategyGraph.Proofs.Json.Legible

/-!
# What can be read as a bar

An entry of a price list is a bar or none, whatever it is, unless an integer beyond all doubles
stands where a number is looked for.

* `Bar.Legible` : the entries that are a bar or none;
* `Bar.succeeds_read` : **all of them are read, and no others.**
-/

namespace StrategyGraph

namespace Bar

variable {j : Json} {fields : Fields} {keys : List String}

/-- The entry is a bar or none: no integer beyond all doubles stands where its price is looked for,
nor, if it has a price, where its time, its high and its low are. -/
def Legible : Json → Prop
  | .array (time :: price :: _) => ¬price.IsTooLarge ∧ (price.IsFinite → ¬time.IsTooLarge)
  | .object fields =>
    UntilFound (fun key => ¬(Fields.get fields key).IsTooLarge)
        (fun key => (Fields.get fields key).IsFinite) priceKeys ∧
      ((∃ key ∈ priceKeys, (Fields.get fields key).IsFinite) →
        ¬(firstGiven fields timeKeys).IsTooLarge ∧
          ¬((Fields.get? fields "high").getD (Fields.get fields "h")).IsTooLarge ∧
          ¬((Fields.get? fields "low").getD (Fields.get fields "l")).IsTooLarge)
  | j => ¬j.IsTooLarge

theorem succeeds_readTime : Succeeds (readTime j) ↔ ¬j.IsTooLarge := by
  have hfinite : Succeeds (j.finite?.map fun x => x.map promote) ↔ ¬j.IsTooLarge := by
    rw [succeeds_map, Json.succeeds_finite?]
  cases j with
  | string s =>
    refine iff_of_true ?_ fun ⟨n, h, _⟩ => by cases h
    rw [readTime]
    split <;> exact succeeds_ok _
  | _ => exact hfinite

theorem succeeds_firstFinite : Succeeds (firstFinite fields keys) ↔
    UntilFound (fun key => ¬(fields.get key).IsTooLarge) (fun key => (fields.get key).IsFinite)
      keys := by
  induction keys with
  | nil => simp [firstFinite, UntilFound]
  | cons key keys ih =>
    rw [firstFinite, UntilFound, ← ih, ← Json.succeeds_finite?]
    exact succeeds_firstOf fun _ => succeeds_ok _

theorem firstFinite_isSome {found : Option Float} (h : firstFinite fields keys = .ok found) :
    found.isSome ↔ ∃ key ∈ keys, (fields.get key).IsFinite := by
  induction keys with
  | nil =>
    cases h
    simp
  | cons key keys ih =>
    obtain ⟨r, hr, h⟩ := bind_eq_ok.1 h
    cases r with
    | none =>
      have hfinite : ¬(fields.get key).IsFinite := by
        rintro ⟨x, hx⟩
        cases hr.symm.trans hx
      rw [ih h]
      simp [hfinite]
    | some x =>
      cases h
      exact iff_of_true rfl ⟨key, List.mem_cons_self, x, hr⟩

/-- **Which entries are a bar or none.** -/
theorem succeeds_read : Succeeds (read j) ↔ Legible j := by
  cases j with
  | number n =>
    change Succeeds (n.finite? >>= _) ↔ _
    exact (succeeds_bind_iff fun _ => succeeds_ok _).trans (Json.succeeds_finite? (j := .number n))
  | array items =>
    match items with
    | [] | [_] => exact iff_of_true (succeeds_ok _) fun ⟨n, h, _⟩ => by cases h
    | time :: price :: _ =>
      change Succeeds (price.finite? >>= _) ↔ _
      rw [succeeds_bind, Json.succeeds_finite?, Legible]
      refine and_congr_right fun _ => ⟨?_, fun h r hr => ?_⟩
      · rintro h ⟨x, hx⟩
        exact succeeds_readTime.1 ((succeeds_bind_iff fun _ => succeeds_ok _).1 (h _ hx))
      · cases r with
        | none => exact succeeds_ok _
        | some x =>
          exact (succeeds_bind_iff fun _ => succeeds_ok _).2 (succeeds_readTime.2 (h ⟨x, hr⟩))
  | object fields =>
    change Succeeds (firstFinite fields priceKeys >>= _) ↔ _
    rw [succeeds_bind, succeeds_firstFinite, Legible]
    refine and_congr_right fun hkeys => ?_
    obtain ⟨found, hfound⟩ := succeeds_firstFinite.2 hkeys
    rw [← firstFinite_isSome hfound, hfound]
    simp only [Except.ok.injEq, forall_eq']
    cases found with
    | none => exact iff_of_true (succeeds_ok _) fun h => by cases h
    | some price =>
      rw [Option.isSome_some, forall_prop_of_true rfl]
      refine succeeds_bind_and succeeds_readTime fun _ _ => ?_
      refine succeeds_bind_and Json.succeeds_finite? fun _ _ => ?_
      exact (succeeds_bind_iff fun _ => succeeds_ok _).trans Json.succeeds_finite?
  | _ => exact iff_of_true (succeeds_ok _) fun ⟨n, h, _⟩ => by cases h

end Bar

end StrategyGraph
