import Mathlib.Algebra.Group.Nat.Defs
import StrategyGraph.Calendar.Instant

/-!
# How far instants lie from the epoch

The calendar has an end, and what a text says about the time of day and the offset is less than two
days.

* `readDate_le`, `natAbs_readTime_lt` : bounds of days and of times of day;
* `Instant.natAbs_read?_lt` : **bounds of all instants that can be read**.
-/

namespace StrategyGraph.Calendar

variable {c : Char} {cs rest : List Char} {n v : Nat}

theorem asciiDigit?_lt (h : asciiDigit? c = some v) : v < 10 := by
  rw [asciiDigit?] at h
  split at h
  · next hdigit =>
    cases h
    have hbounds : '0'.toNat ≤ c.toNat ∧ c.toNat ≤ '9'.toNat := by
      simpa [Char.isDigit, UInt32.le_iff_toNat_le] using hdigit
    have hzero : '0'.toNat = 48 := rfl
    have hnine : '9'.toNat = 57 := rfl
    omega
  · cases h

theorem digits_of_mapM {ds : List Nat} (h : cs.mapM asciiDigit? = some ds) :
    ds.length = cs.length ∧ ∀ d ∈ ds, d < 10 := by
  induction cs generalizing ds with
  | nil =>
    cases h
    simp
  | cons c cs ih =>
    rw [List.mapM_cons] at h
    obtain ⟨d, hd, h⟩ := Option.bind_eq_some_iff.1 h
    obtain ⟨rest, hrest, h⟩ := Option.bind_eq_some_iff.1 h
    cases h
    obtain ⟨hlength, hdigits⟩ := ih hrest
    exact ⟨congrArg (· + 1) hlength, List.forall_mem_cons.2 ⟨asciiDigit?_lt hd, hdigits⟩⟩

theorem takeDigits_lt (h : takeDigits n cs = some (v, rest)) : v < tenTo n := by
  rw [takeDigits] at h
  split at h
  · next hcount =>
    obtain ⟨ds, hds, heq⟩ := Option.map_eq_some_iff.1 h
    cases heq
    obtain ⟨hlength, hdigits⟩ := digits_of_mapM hds
    have hlt := foldl_digits_lt hdigits 0
    rwa [hlength, hcount, Nat.zero_add, Nat.one_mul] at hlt
  · cases h

namespace Clock

variable {more i : Nat} {colons : Bool} {clock result : Clock}

theorem micro_readFraction (h : clock.readFraction cs = some result) : result.micro < 1000000 := by
  rw [readFraction] at h
  obtain ⟨⟨v, rest⟩, hdigits, h⟩ := Option.bind_eq_some_iff.1 h
  cases h
  have hlt := takeDigits_lt hdigits
  have hle : min 6 cs.length ≤ 6 := Nat.min_le_left ..
  generalize min 6 cs.length = n at hlt hle
  calc v * tenTo (6 - n)
      < 10 ^ n * 10 ^ (6 - n) := Nat.mul_lt_mul_of_pos_right hlt (Nat.pow_pos (by decide))
    _ = 10 ^ 6 := by rw [← Nat.pow_add, Nat.add_sub_cancel' hle]

theorem micro_set : (clock.set i v).micro = clock.micro := by
  rw [set.eq_def]
  split <;> rfl

/-- What reading one component comes to: it is the last one, a fraction follows, or others do. -/
theorem readFrom_cases (h : readFrom more i colons clock cs = some result) : ∃ v,
    result.micro = (clock.set i v).micro ∨
      (∃ next, (clock.set i v).readFraction next = some result) ∨
      ∃ n next divided, more = n + 1 ∧
        readFrom n (i + 1) divided (clock.set i v) next = some result := by
  rw [readFrom.eq_def] at h
  obtain ⟨⟨v, rest⟩, -, h⟩ := Option.bind_eq_some_iff.1 h
  refine ⟨v, ?_⟩
  dsimp only at h
  split at h
  · cases h
    exact .inl rfl
  · cases h
    exact .inl rfl
  · next d tail _ =>
    generalize decide (if i = 0 then d = ':' else colons = true) = divided at h
    split at h
    · split at h
      · exact .inr (.inl ⟨_, h⟩)
      · exact .inr (.inr ⟨_, _, _, rfl, h⟩)
    · split at h
      · exact .inr (.inl ⟨_, h⟩)
      · cases h

theorem micro_readFrom (h : readFrom more i colons clock cs = some result)
    (hclock : clock.micro < 1000000) : result.micro < 1000000 := by
  induction more generalizing i colons clock cs with
  | zero =>
    obtain ⟨v, hlast | ⟨next, hfraction⟩ | ⟨n, next, divided, hmore, -⟩⟩ := readFrom_cases h
    · rwa [hlast, micro_set]
    · exact micro_readFraction hfraction
    · cases hmore
  | succ more ih =>
    obtain ⟨v, hlast | ⟨next, hfraction⟩ | ⟨n, next, divided, hmore, hnext⟩⟩ := readFrom_cases h
    · rwa [hlast, micro_set]
    · exact micro_readFraction hfraction
    · cases hmore
      exact ih hnext (by rwa [micro_set])

end Clock

theorem foldl_add_le {α : Type} {f : α → Nat} {b : Nat} {l : List α} (h : ∀ a ∈ l, f a ≤ b)
    (v : Nat) : (l.map f).foldl (· + ·) v ≤ v + b * l.length := by
  induction l generalizing v with
  | nil => simp
  | cons a l ih =>
    obtain ⟨ha, hl⟩ := List.forall_mem_cons.1 h
    have hfold := ih hl (v + f a)
    rw [List.map_cons, List.foldl_cons, List.length_cons, Nat.mul_succ]
    omega

theorem daysInMonth_le (year month : Nat) : daysInMonth year month ≤ 31 := by
  rw [daysInMonth.eq_def]
  split
  · split <;> omega
  all_goals omega

theorem dayNumber?_le {year month day : Nat} (h : dayNumber? year month day = some n) :
    n ≤ 4000000 := by
  rw [dayNumber?] at h
  split at h
  · next hdate =>
    cases h
    obtain ⟨-, hyear, -, hmonth, -, hday⟩ := hdate
    have hin := daysInMonth_le year month
    have hbefore : daysBeforeMonth year month ≤ 0 + 31 * (List.range (month - 1)).length :=
      foldl_add_le (fun m _ => daysInMonth_le year (m + 1)) 0
    rw [List.length_range] at hbefore
    have hyear' : daysBeforeYear year ≤ 3700000 := by
      rw [daysBeforeYear]
      rw [maxYear] at hyear
      omega
    omega
  · cases h

theorem weekDayNumber?_le {year week weekday : Nat}
    (h : weekDayNumber? year week weekday = some n) : n ≤ 4000000 := by
  rw [weekDayNumber?] at h
  split at h
  · dsimp only at h
    split at h
    · next hle =>
      cases h
      exact Nat.le_trans hle (by decide)
    · cases h
  · cases h

theorem readDate_le {length : Nat} (h : readDate length cs = some n) : n ≤ 4000000 := by
  rw [readDate] at h
  obtain ⟨⟨year, rest⟩, -, h⟩ := Option.bind_eq_some_iff.1 h
  dsimp only at h
  split at h
  · obtain ⟨⟨week, rest⟩, -, h⟩ := Option.bind_eq_some_iff.1 h
    dsimp only at h
    split at h
    · exact weekDayNumber?_le h
    · split at h
      · obtain ⟨⟨weekday, rest⟩, -, h⟩ := Option.bind_eq_some_iff.1 h
        exact weekDayNumber?_le h
      · cases h
  · obtain ⟨⟨week, rest⟩, -, h⟩ := Option.bind_eq_some_iff.1 h
    dsimp only at h
    split at h
    · exact weekDayNumber?_le h
    · obtain ⟨⟨weekday, rest⟩, -, h⟩ := Option.bind_eq_some_iff.1 h
      exact weekDayNumber?_le h
  · obtain ⟨⟨month, rest⟩, -, h⟩ := Option.bind_eq_some_iff.1 h
    dsimp only at h
    split at h
    · obtain ⟨⟨day, rest⟩, -, h⟩ := Option.bind_eq_some_iff.1 h
      exact dayNumber?_le h
    · cases h
  · obtain ⟨⟨month, rest⟩, -, h⟩ := Option.bind_eq_some_iff.1 h
    obtain ⟨⟨day, rest⟩, -, h⟩ := Option.bind_eq_some_iff.1 h
    exact dayNumber?_le h

theorem natAbs_readOffset_lt {shift : Int} (h : readOffset cs = some shift) :
    shift.natAbs < 86400 * 1000000 := by
  cases cs with
  | nil =>
    cases h
    decide
  | cons sign cs =>
    obtain ⟨clock, -, h⟩ := Option.bind_eq_some_iff.1 h
    split at h
    · cases h
    · dsimp only at h
      generalize (if clock.seconds = 0 then 0 else _) = size at h
      split at h
      · cases h
        split <;> omega
      · cases h

theorem natAbs_readTime_lt {time : Int} (h : readTime cs = some time) :
    time.natAbs < 2 * 86400 * 1000000 := by
  obtain ⟨clock, hclock, h⟩ := Option.bind_eq_some_iff.1 h
  obtain ⟨shift, hshift, h⟩ := Option.bind_eq_some_iff.1 h
  have hmicro : clock.micro < 1000000 := Clock.micro_readFrom hclock (by decide)
  have hshift := natAbs_readOffset_lt hshift
  split at h
  · cases h
  · next hsmall =>
    cases h
    simp only [Bool.or_eq_true, decide_eq_true_eq, not_or] at hsmall
    rw [Clock.seconds]
    omega

/-- **Instants lie less than forty thousand years from the epoch.** -/
theorem Instant.natAbs_read?_lt {s : String} {micros : Int} (h : read? s = some micros) :
    micros.natAbs < 2 ^ 60 := by
  rw [read?] at h
  dsimp only at h
  split at h
  · cases h
  · obtain ⟨day, hday, h⟩ := Option.bind_eq_some_iff.1 h
    have hday := readDate_le hday
    have hepoch : epochDay = 719163 := rfl
    split at h
    · cases h
      omega
    · obtain ⟨time, htime, rfl⟩ := Option.map_eq_some_iff.1 h
      have htime := natAbs_readTime_lt htime
      omega

end StrategyGraph.Calendar
