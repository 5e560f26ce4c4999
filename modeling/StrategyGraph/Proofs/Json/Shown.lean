import StrategyGraph.Json.Parser
import StrategyGraph.Proofs.Fault

/-!
# Values that can be shown

An integer can be shown as a text if it has no more than `Decimal.maxDigits` digits. Whoever shows a
longer one, alone or inside a list or an object, ends with a fault. `Json.text` takes it for granted
that a value can be shown: it gives the text that there would be without the limit.

* `Json.HasText` : the values that can be shown;
* `Json.hasText_array`, `Json.hasText_object` : lists and objects can if their items can;
* `Json.hasText_of_parse` : **all that is read from a text can be shown**, as the limit holds for
  reading, too.
-/

namespace StrategyGraph

namespace Json

mutual

/-- The integers of a value, wherever in it they stand. -/
def integers : Json → List Int
  | .number (.int n) => [n]
  | .array items => integersOfItems items
  | .object fields => integersOfFields fields
  | _ => []

/-- The integers of values. -/
def integersOfItems : List Json → List Int
  | [] => []
  | j :: js => integers j ++ integersOfItems js

/-- The integers of the values of fields. -/
def integersOfFields : List (String × Json) → List Int
  | [] => []
  | (_, j) :: fields => integers j ++ integersOfFields fields

end

/-- The value can be shown as a text: no integer in it has too many digits. -/
def HasText (j : Json) : Prop := ∀ n ∈ j.integers, n.natAbs < tenTo Decimal.maxDigits

instance (j : Json) : Decidable j.HasText :=
  inferInstanceAs (Decidable (∀ n ∈ j.integers, n.natAbs < tenTo Decimal.maxDigits))

variable {items : List Json} {fields : Fields} {key : String} {j : Json}

theorem integersOfItems_eq (items : List Json) :
    integersOfItems items = items.flatMap integers := by
  induction items with
  | nil => rfl
  | cons j js ih => rw [integersOfItems, ih, List.flatMap_cons]

theorem integersOfFields_eq (fields : Fields) :
    integersOfFields fields = fields.flatMap fun f => f.2.integers := by
  induction fields with
  | nil => rfl
  | cons f fields ih => rw [integersOfFields, ih, List.flatMap_cons]

theorem hasText_array : (array items).HasText ↔ ∀ j ∈ items, j.HasText := by
  rw [HasText, integers, integersOfItems_eq]
  simp only [List.mem_flatMap]
  exact ⟨fun h j hj n hn => h n ⟨j, hj, hn⟩, fun h n ⟨j, hj, hn⟩ => h j hj n hn⟩

theorem hasText_object : (object fields).HasText ↔ ∀ f ∈ fields, f.2.HasText := by
  rw [HasText, integers, integersOfFields_eq]
  simp only [List.mem_flatMap]
  exact ⟨fun h f hf n hn => h n ⟨f, hf, hn⟩, fun h n ⟨f, hf, hn⟩ => h f hf n hn⟩

theorem hasText_int {n : Int} : (ofInt n).HasText ↔ n.natAbs < tenTo Decimal.maxDigits := by
  simp [HasText, integers]

theorem hasText_null : null.HasText := fun _ h => by cases h

theorem hasText_string (s : String) : (string s).HasText := fun _ h => by cases h

example : (ofInt (tenTo 4299)).HasText := by decide +kernel

example : ¬(array [ofInt (-(tenTo 4300))]).HasText := by decide +kernel

/-! ### Reading -/

theorem digit?_lt {c : Char} {d : Nat} (h : Text.digit? c = some d) : d < 10 := by
  obtain ⟨first, hfirst, rfl⟩ := Option.map_eq_some_iff.1 h
  have hbounds := List.find?_some hfirst
  simp only [Bool.and_eq_true, decide_eq_true_eq] at hbounds
  omega

theorem hasText_of_digits {whole : List Char} (h : ¬Decimal.maxDigits < whole.length)
    (negative : Bool) :
    let n : Int := Decimal.ofDigits (whole.filterMap Text.digit?)
    (ofInt (if negative then -n else n)).HasText := by
  have hdigits : ∀ d ∈ whole.filterMap Text.digit?, d < 10 := by
    intro d hd
    obtain ⟨c, -, hc⟩ := List.mem_filterMap.1 hd
    exact digit?_lt hc
  have hlength : (whole.filterMap Text.digit?).length ≤ Decimal.maxDigits :=
    Nat.le_trans (List.length_filterMap_le _ _) (Nat.not_lt.1 h)
  have hlt : Decimal.ofDigits (whole.filterMap Text.digit?) < tenTo Decimal.maxDigits := by
    have hfold := foldl_digits_lt hdigits 0
    rw [Nat.zero_add, Nat.one_mul] at hfold
    exact Nat.lt_of_lt_of_le hfold (tenTo_le_tenTo hlength)
  intro n
  rw [hasText_int]
  cases negative
  · exact hlt
  · rwa [if_pos rfl, Int.natAbs_neg]

theorem hasText_of_readNumber {cs : List Char} {n : Number} (h : readNumber cs = .ok n) :
    (number n).HasText := by
  unfold readNumber at h
  dsimp only at h
  -- The sign makes no difference.
  split at h
  all_goals
    dsimp only at h
    split at h
    · cases h
    · split at h
      · split at h
        · cases h
        · next hdigits =>
          obtain rfl := Except.ok.inj h
          exact hasText_of_digits hdigits _
      · split at h
        · obtain rfl := Except.ok.inj h
          exact fun _ hn => by cases hn
        · cases h

theorem hasText_of_readWord {cs : List Char} (h : readWord cs = .ok j) : j.HasText := by
  unfold readWord at h
  split at h
  case h_7 =>
    obtain ⟨n, hn, rfl⟩ := map_eq_ok.1 h
    exact hasText_of_readNumber hn
  all_goals
    cases h
    exact fun _ hn => by cases hn

theorem hasText_put (hj : j.HasText) (h : ∀ f ∈ fields, f.2.HasText) :
    ∀ f ∈ fields.put key j, f.2.HasText := by
  induction fields with
  | nil => simpa [Fields.put] using hj
  | cons first fields ih =>
    rw [List.forall_mem_cons] at h
    rw [Fields.put]
    split
    · exact List.forall_mem_cons.2 ⟨hj, h.2⟩
    · exact List.forall_mem_cons.2 ⟨h.1, ih h.2⟩

/-- What was read inside an open bracket can be shown. -/
def Frame.HasText : Frame → Prop
  | .array items => ∀ j ∈ items, j.HasText
  | .object fields | .field fields _ => ∀ f ∈ fields, f.2.HasText

/-- All that was read so far can be shown. -/
structure Reader.HasText (r : Reader) : Prop where
  stack : ∀ f ∈ r.stack, f.HasText
  value : ∀ j, r.expect = .finish j → j.HasText

namespace Reader

variable {r r' : Reader}

theorem hasText_close (h : ∀ f ∈ fields, f.2.HasText) : (close fields).HasText := by
  rw [close, hasText_object]
  induction fields with
  | nil => simp
  | cons f fields ih =>
    rw [List.forall_mem_cons] at h
    exact hasText_put h.1 (ih h.2)

/-- Inside brackets, only what was read in them matters. -/
theorem HasText.inside {stack : List Frame} {expect : Expect} {scan : Scan}
    (hstack : ∀ f ∈ stack, f.HasText) (hexpect : ∀ j, expect ≠ .finish j) :
    (⟨stack, expect, scan⟩ : Reader).HasText :=
  ⟨hstack, fun j hj => absurd hj (hexpect j)⟩

theorem HasText.innermost (h : r.HasText) {f : Frame} {rest : List Frame}
    (hstack : r.stack = f :: rest) : f.HasText ∧ ∀ g ∈ rest, g.HasText :=
  List.forall_mem_cons.1 (hstack ▸ h.stack)

/-- A value is taken into the innermost bracket, or it is the whole text. -/
theorem HasText.push (h : r.HasText) (hj : j.HasText) (hr : r.push j = .ok r') : r'.HasText := by
  unfold Reader.push at hr
  split at hr
  case h_1 =>
    cases hr
    exact ⟨h.stack, fun _ heq => by cases heq; exact hj⟩
  case h_5 => cases hr
  all_goals
    next hopen =>
      cases hr
      obtain ⟨hinner, hrest⟩ := h.innermost hopen
      exact .inside (List.forall_mem_cons.2 ⟨List.forall_mem_cons.2 ⟨hj, hinner⟩, hrest⟩) (by simp)

theorem HasText.pushText (h : r.HasText) {s : String} (hr : r.pushText s = .ok r') :
    r'.HasText := by
  unfold Reader.pushText at hr
  split at hr
  case h_3 => exact h.push (hasText_string s) hr
  all_goals
    next hopen =>
      cases hr
      obtain ⟨hinner, hrest⟩ := h.innermost hopen
      exact .inside (List.forall_mem_cons.2 ⟨hinner, hrest⟩) (by simp)

theorem HasText.punctuate (h : r.HasText) {c : Char} (hr : r.punctuate c = .ok r') :
    r'.HasText := by
  have hpop {rest : List Frame} {j : Json} (hrest : ∀ f ∈ rest, f.HasText)
      (hj : j.HasText) (hpop : pop rest j = .ok r') : r'.HasText :=
    HasText.push (.inside hrest (by simp)) hj hpop
  unfold Reader.punctuate at hr
  split at hr
  case h_1 | h_2 | h_3 | h_4 =>
    cases hr
    exact .inside (List.forall_mem_cons.2 ⟨by simp [Frame.HasText], h.stack⟩) (by simp)
  case h_5 hopen | h_6 hopen =>
    obtain ⟨hinner, hrest⟩ := h.innermost hopen
    exact hpop hrest (hasText_array.2 fun j hj => hinner j (List.mem_reverse.1 hj)) hr
  case h_7 hopen | h_8 hopen =>
    obtain ⟨hinner, hrest⟩ := h.innermost hopen
    exact hpop hrest (hasText_close hinner) hr
  case h_9 | h_10 | h_11 =>
    cases hr
    exact .inside h.stack (by simp)
  case h_12 => cases hr

theorem HasText.scan (h : r.HasText) (scan : Scan) : HasText { r with scan } := ⟨h.stack, h.value⟩

theorem HasText.start (h : r.HasText) {c : Char} (hr : r.start c = .ok r') : r'.HasText := by
  unfold Reader.start at hr
  split at hr
  · cases hr
    exact h.scan _
  · split at hr
    · cases hr
      exact h.scan _
    · split at hr
      · cases hr
        exact h.scan _
      · exact (h.scan _).punctuate hr

theorem HasText.step (h : r.HasText) {c : Char} (hr : r.step c = .ok r') : r'.HasText := by
  unfold Reader.step at hr
  split at hr
  · exact h.start hr
  · split at hr
    · cases hr
      exact h.scan _
    · obtain ⟨j, hj, hr⟩ := bind_eq_ok.1 hr
      obtain ⟨pushed, hpushed, hr⟩ := bind_eq_ok.1 hr
      exact (h.push (hasText_of_readWord hj) hpushed).start hr
  · split at hr
    · exact h.pushText hr
    · split at hr
      · cases hr
        exact h.scan _
      · split at hr
        · cases hr
        · cases hr
          exact h.scan _
  · split at hr
    · cases hr
      exact h.scan _
    · split at hr
      · cases hr
        exact h.scan _
      · cases hr
  · split at hr
    · cases hr
    · dsimp only at hr
      split at hr
      · cases hr
        exact h.scan _
      · cases hr
        exact h.scan _

theorem HasText.run (h : r.HasText) {cs : List Char} (hr : cs.foldlM Reader.step r = .ok r') :
    r'.HasText := by
  induction cs generalizing r with
  | nil =>
    cases hr
    exact h
  | cons c cs ih =>
    obtain ⟨next, hnext, hr⟩ := bind_eq_ok.1 hr
    exact ih (h.step hnext) hr

theorem HasText.finish (h : r.HasText) (hj : r.finish = .ok j) : j.HasText := by
  unfold Reader.finish at hj
  -- The text ends between values or in a word.
  split at hj
  · obtain ⟨_, hr, hj⟩ := bind_eq_ok.1 hj
    cases hr
    dsimp only at hj
    split at hj
    · next hexpect =>
      cases hj
      exact h.value _ hexpect
    · cases hj
  · obtain ⟨word, hword, hj⟩ := bind_eq_ok.1 hj
    obtain ⟨last, hlast, hj⟩ := bind_eq_ok.1 hj
    have hpushed := h.push (hasText_of_readWord hword) hlast
    dsimp only at hj
    split at hj
    · next hexpect =>
      cases hj
      exact hpushed.value _ hexpect
    · cases hj
  · cases hj

end Reader

/-- **All that is read from a text can be shown.** -/
theorem hasText_of_parse {s : String} (h : parse s = .ok j) : j.HasText := by
  obtain ⟨r, hr, hj⟩ := bind_eq_ok.1 h
  have hstart : Reader.HasText ⟨[], .value, .between⟩ := .inside (by simp) (by simp)
  exact (hstart.run hr).finish hj

end Json

end StrategyGraph
