import Mathlib.Data.List.DropRight
import Mathlib.Data.List.TakeWhile
import StrategyGraph.Text.Classes

/-!
# Blanks and digits

Where the two classes of characters lie among the code points, and what freeing a text of blanks
leaves of it.

* `not_isDigit_of_isBlank` : no blank is a digit;
* `bounds_of_isDigit` : beyond the ASCII digits there is none below `U+0660`;
* `exists_trim` : what is trimmed off a text are blanks;
* `trimBy_eq_self` : nothing is trimmed off a text without them.
-/

namespace StrategyGraph.Text

variable {c : Char} {cs bs : List Char}

theorem isBlank_iff : isBlank c = true ↔ ∃ r ∈ blankRanges, r.1 ≤ c.toNat ∧ c.toNat ≤ r.2 := by
  simp [isBlank]

theorem isDigit_iff : isDigit c = true ↔ ∃ z ∈ digitZeros, z ≤ c.toNat ∧ c.toNat ≤ z + 9 := by
  simp [isDigit, digit?]

theorem not_isDigit_of_isBlank (h : isBlank c = true) : isDigit c = false := by
  have apart : ∀ r ∈ blankRanges, ∀ z ∈ digitZeros, r.2 < z ∨ z + 9 < r.1 := by decide
  obtain ⟨r, hr, hc⟩ := isBlank_iff.1 h
  rw [Bool.eq_false_iff, Ne, isDigit_iff]
  rintro ⟨z, hz, hz'⟩
  have := apart r hr z hz
  omega

/-- Beyond the ASCII digits there is no digit below `U+0660`. -/
theorem bounds_of_isDigit (h : isDigit c = true) :
    48 ≤ c.toNat ∧ c.toNat ≤ 57 ∨ 1632 ≤ c.toNat := by
  have apart : ∀ z ∈ digitZeros, z = 48 ∨ 1632 ≤ z := by decide
  obtain ⟨z, hz, hc⟩ := isDigit_iff.1 h
  have := apart z hz
  omega

theorem toLower_of_isDigit (h : isDigit c = true) : c.toLower = c := by
  have hbounds := bounds_of_isDigit h
  refine dif_neg ?_
  rintro ⟨hlow, hhigh⟩
  change 65 ≤ c.toNat at hlow
  change c.toNat ≤ 90 at hhigh
  omega

theorem outside_of_isBlank (h : isBlank c = true) : c.toNat < 46 ∨ 122 < c.toNat := by
  have apart : ∀ r ∈ blankRanges, r.2 < 46 ∨ 122 < r.1 := by decide
  obtain ⟨r, hr, hc⟩ := isBlank_iff.1 h
  have := apart r hr
  omega

theorem trim_eq (cs : List Char) : trim cs = (cs.dropWhile isBlank).rdropWhile isBlank := rfl

theorem trimBy_eq_self {skip : Char → Bool} (h : ∀ c ∈ cs, skip c = false) :
    trimBy skip cs = cs := by
  have hstart : ∀ ds : List Char, (∀ c ∈ ds, skip c = false) → ds.dropWhile skip = ds := by
    intro ds hds
    refine List.dropWhile_eq_self_iff.2 fun hlength => ?_
    simp [hds _ (List.getElem_mem hlength)]
  rw [trimBy, hstart cs h, hstart _ fun c hc => h c (List.mem_reverse.1 hc), List.reverse_reverse]

theorem exists_trim (cs : List Char) : ∃ before after, (∀ c ∈ before, isBlank c = true) ∧
    (∀ c ∈ after, isBlank c = true) ∧ cs = before ++ (trim cs ++ after) := by
  refine ⟨cs.takeWhile isBlank, (cs.dropWhile isBlank).rtakeWhile isBlank,
    fun c => List.mem_takeWhile_imp, fun c => List.mem_rtakeWhile_imp, ?_⟩
  rw [trim_eq, List.rdropWhile_append_rtakeWhile, List.takeWhile_append_dropWhile]

theorem trim_eq_nil_iff : trim cs = [] ↔ ∀ c ∈ cs, isBlank c = true := by
  rw [trim_eq, List.rdropWhile_eq_nil_iff]
  refine ⟨fun h c hc => ?_, fun h c hc => h c ((List.dropWhile_sublist _).mem hc)⟩
  rw [← List.takeWhile_append_dropWhile (p := isBlank) (l := cs), List.mem_append] at hc
  exact hc.elim List.mem_takeWhile_imp (h c)

theorem strip_eq_empty_iff {s : String} : strip s = "" ↔ trim s.toList = [] := by
  rw [strip, ← String.toList_inj, String.toList_ofList]
  rfl

theorem strip_strip_eq_empty_iff {s : String} : strip (strip s) = "" ↔ strip s = "" := by
  rw [strip_eq_empty_iff, strip_eq_empty_iff, strip, String.toList_ofList, trim_eq_nil_iff]
  obtain ⟨before, after, hbefore, hafter, hs⟩ := exists_trim s.toList
  constructor
  · intro h
    rw [trim_eq_nil_iff, hs]
    simp only [List.mem_append]
    rintro c (hc | hc | hc)
    · exact hbefore c hc
    · exact h c hc
    · exact hafter c hc
  · intro h
    simp [h]

/-- What stops a repetition is no part of it, nor is what comes after. -/
theorem takeWhile_append_of_head {p : Char → Bool} (h : ∀ b ∈ bs.head?, p b = false) :
    (cs ++ bs).takeWhile p = cs.takeWhile p := by
  have hnone : bs.takeWhile p = [] := by
    cases bs with
    | nil => rfl
    | cons b bs => exact List.takeWhile_cons_of_neg (by simp [h b rfl])
  rw [List.takeWhile_append, hnone, List.append_nil]
  split
  · next h => exact ((List.takeWhile_prefix p).eq_of_length h).symm
  · rfl

end StrategyGraph.Text
