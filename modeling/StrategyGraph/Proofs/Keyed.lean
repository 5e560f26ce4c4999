/-!
# Looking up by key

In a list of items with distinct keys, an item is found by its key: `find?_key_iff`. Items may be
changed before or after they are looked up, as long as they keep their keys: `find?_key_map`. Pairs
of a key and a value are looked up in the same way: `lookup_of_mem`, `mem_of_lookup`. Where items
share a key, `mem_map_filter_key` tells what they hold.
-/

namespace StrategyGraph

variable {α β κ : Type} [DecidableEq κ] {key : α → κ} {items : List α} {k : κ} {a : α}

theorem find?_key_iff (h : (items.map key).Nodup) :
    items.find? (fun b => key b = k) = some a ↔ a ∈ items ∧ key a = k := by
  constructor
  · intro hfind
    exact ⟨List.mem_of_find?_eq_some hfind, by simpa using List.find?_some hfind⟩
  · rintro ⟨ha, rfl⟩
    induction items with
    | nil => cases ha
    | cons b items ih =>
      obtain ⟨hnew, hdistinct⟩ := List.nodup_cons.1 h
      rcases List.mem_cons.1 ha with rfl | hlater
      · simp
      · have hother : key b ≠ key a := fun hkey => hnew (hkey ▸ List.mem_map_of_mem hlater)
        rw [List.find?_cons_of_neg (by simpa using hother)]
        exact ih hdistinct hlater

theorem find?_key_eq_none : items.find? (fun b => key b = k) = none ↔ k ∉ items.map key := by
  simp

theorem find?_key_map {change : α → α} (h : ∀ a, key (change a) = key a) :
    (items.map change).find? (fun b => key b = k) =
      (items.find? fun b => key b = k).map change := by
  simp only [List.find?_map, Function.comp_def, h]

theorem lookup_of_mem {pairs : List (κ × β)} {b : β} (h : (pairs.map Prod.fst).Nodup)
    (hmem : (k, b) ∈ pairs) : pairs.lookup k = some b := by
  induction pairs with
  | nil => cases hmem
  | cons pair pairs ih =>
    obtain ⟨k', b'⟩ := pair
    rw [List.map_cons, List.nodup_cons] at h
    rcases List.mem_cons.1 hmem with heq | hlater
    · cases heq
      simp
    · have hother : (k == k') = false := by
        rw [beq_eq_false_iff_ne]
        rintro rfl
        exact h.1 (List.mem_map.2 ⟨(k, b), hlater, rfl⟩)
      rw [List.lookup_cons, hother]
      exact ih h.2 hlater

theorem mem_of_lookup {pairs : List (κ × β)} {b : β} (h : pairs.lookup k = some b) :
    (k, b) ∈ pairs := by
  obtain ⟨before, after, rfl, -⟩ := List.lookup_eq_some_iff.1 h
  simp

theorem mem_map_filter_key {value : α → β} {b : β} :
    b ∈ (items.filter fun a => key a = k).map value ↔ ∃ a ∈ items, key a = k ∧ value a = b := by
  simp only [List.mem_map, List.mem_filter, decide_eq_true_eq, and_assoc]

end StrategyGraph
