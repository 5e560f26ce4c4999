import StrategyGraph.Proofs.Calendar.Instant
import StrategyGraph.Proofs.Fault
import StrategyGraph.Proofs.Number.Integral
import StrategyGraph.Proofs.Number.Moderate
import StrategyGraph.Simulation.Bars

/-!
# Bars that are stored

A bar is stored as an object with its time in milliseconds, and a number in the place of a time is
read as milliseconds or as seconds, whichever it seems to be.

* `Bar.reread` : what is made of a time in milliseconds when it is read;
* `Bar.WellRead` : what all bars have in common that can be read: finite prices, and a time that is
  a double (`Bar.wellRead_of_read`);
* `Bar.read_toJson` : such a bar is read again with its prices, and its time is reread;
* `Bar.stored_survives` : **these are the bars that survive, but for the times of the first trillion
  milliseconds after 1970**.
-/

namespace StrategyGraph

open Binary64 (IsExact IsModerate)

/-! ### Times -/

namespace Bar

variable {x : Float} {t : Int} {j : Json} {b : Bar} {entry : Json ⊕ Bar}

theorem isModerate_thousand : IsModerate 1000.0 := ⟨rfl, by decide⟩

theorem isModerate_millisFrom : IsModerate millisFrom := ⟨rfl, by decide⟩

theorem isExact_promote (h : x.isFinite = true) : IsExact (promote x) := by
  refine Binary64.isExact_truncate ?_
  split
  · next hseconds =>
    obtain ⟨hpos, hlt⟩ := Bool.and_eq_true_iff.1 hseconds
    have hx : IsModerate x := Binary64.isModerate_of_lt (of_decide_eq_true hpos)
      (of_decide_eq_true hlt) isModerate_millisFrom
    exact hx.isFinite_mul isModerate_thousand
  · exact h

theorem isExact_millis {micros : Int} (h : micros.natAbs < 2 ^ 60) :
    IsExact (Calendar.Instant.millis micros) := by
  refine Binary64.isExact_truncate (IsModerate.isFinite_mul ?_ isModerate_thousand)
  have hlog : micros.natAbs.log2 ≤ 400 := by
    by_cases hzero : micros.natAbs = 0
    · rw [hzero]
      decide
    · have hlt := (Nat.log2_lt hzero).2 h
      omega
  have hseconds : IsModerate (Binary64.ofRatio micros.natAbs 1000000) :=
    Binary64.isModerate_ofRatio (by decide) hlog
  split
  · exact hseconds.neg
  · exact hseconds

/-- What a time in milliseconds is read as: it counts as seconds if it is positive and small. -/
def reread (t : Int) : Int := if 0 < t ∧ t < 1000000000000 then 1000 * t else t

/-- **A time that is a double is reread exactly.** -/
theorem promote_ofInt (h : IsExact t) : promote (Binary64.ofInt t) = reread t := by
  have hzero : (0.0 : Float) = Binary64.ofInt 0 := rfl
  have hmillis : millisFrom = Binary64.ofInt 1000000000000 := by decide +kernel
  have hthousand : (1000.0 : Float) = Binary64.ofInt 1000 := by decide +kernel
  have hpos : (0.0 : Float) < Binary64.ofInt t ↔ 0 < t := by
    rw [hzero, Binary64.ofInt_lt_iff (Binary64.isExact_of_lt (by decide)) h]
  have hlt : Binary64.ofInt t < millisFrom ↔ t < 1000000000000 := by
    rw [hmillis, Binary64.ofInt_lt_iff h (Binary64.isExact_of_lt (by decide))]
  rw [promote, reread]
  simp only [hpos, hlt, Bool.and_eq_true, decide_eq_true_eq]
  split
  · next hseconds =>
    rw [hthousand, Binary64.ofInt_mul hseconds.1 (by decide) (by omega),
      Binary64.truncate_ofInt (Binary64.isExact_of_lt (by omega)), Int.mul_comm]
  · exact Binary64.truncate_ofInt h

/-! ### Bars -/

/-- The bar is one that can be read: its prices are finite, and its time is a double. -/
structure WellRead (b : Bar) : Prop where
  /-- The price is finite, -/
  price : b.price.isFinite = true
  /-- and so are the high -/
  high : ∀ x ∈ b.high, x.isFinite = true
  /-- and the low. -/
  low : ∀ x ∈ b.low, x.isFinite = true
  /-- The time is a double. -/
  time : ∀ t ∈ b.time, IsExact t

theorem isFinite_of_finite? (h : j.finite? = .ok (some x)) : x.isFinite = true := by
  rw [Json.finite?] at h
  split at h
  · cases h
  · obtain ⟨y, -, h⟩ := map_eq_ok.1 h
    split at h
    · next hfinite =>
      cases h
      exact hfinite
    · cases h

theorem isFinite_of_firstFinite {fields : Fields} {keys : List String}
    (h : firstFinite fields keys = .ok (some x)) : x.isFinite = true := by
  induction keys with
  | nil => cases h
  | cons key keys ih =>
    rw [firstFinite] at h
    obtain ⟨found, hfound, h⟩ := bind_eq_ok.1 h
    cases found with
    | none => exact ih h
    | some y =>
      cases h
      exact isFinite_of_finite? hfound

theorem isExact_of_finite? (h : (j.finite?.map fun x => x.map promote) = .ok (some t)) :
    IsExact t := by
  obtain ⟨found, hfound, hpromote⟩ := map_eq_ok.1 h
  obtain ⟨x, rfl, rfl⟩ := Option.map_eq_some_iff.1 hpromote
  exact isExact_promote (isFinite_of_finite? hfound)

theorem isExact_readTime (h : readTime j = .ok (some t)) : IsExact t := by
  rw [readTime.eq_def] at h
  split at h
  · next s =>
    dsimp only at h
    split at h
    · next x hx =>
      cases h
      exact isExact_promote (Option.filter_eq_some_iff.1 hx).2
    · obtain ⟨micros, hmicros, rfl⟩ := Option.map_eq_some_iff.1 (Except.ok.inj h)
      exact isExact_millis (Calendar.Instant.natAbs_read?_lt hmicros)
  · exact isExact_of_finite? h

/-- **Bars that are read are such bars.** -/
theorem wellRead_of_read (h : read j = .ok (some b)) : b.WellRead := by
  have htimes : ∀ {k time}, readTime k = .ok time → ∀ t ∈ time, IsExact t := by
    rintro k time htime t rfl
    exact isExact_readTime htime
  have hdoubles : ∀ {k : Json} {found}, k.finite? = .ok found → ∀ x ∈ found, x.isFinite = true := by
    rintro k found hfound x rfl
    exact isFinite_of_finite? hfound
  rw [read.eq_def] at h
  split at h
  · obtain ⟨found, hfound, h⟩ := bind_eq_ok.1 h
    cases found with
    | none => cases h
    | some price =>
      obtain ⟨time, htime, h⟩ := bind_eq_ok.1 h
      cases h
      exact ⟨isFinite_of_finite? hfound, by simp, by simp, htimes htime⟩
  · next n =>
    obtain ⟨found, hfound, h⟩ := bind_eq_ok.1 h
    obtain ⟨price, rfl, rfl⟩ := Option.map_eq_some_iff.1 (Except.ok.inj h)
    exact ⟨isFinite_of_finite? (j := .number n) hfound, by simp, by simp, by simp⟩
  · obtain ⟨found, hfound, h⟩ := bind_eq_ok.1 h
    cases found with
    | none => cases h
    | some price =>
      obtain ⟨time, htime, h⟩ := bind_eq_ok.1 h
      obtain ⟨high, hhigh, h⟩ := bind_eq_ok.1 h
      obtain ⟨low, hlow, h⟩ := bind_eq_ok.1 h
      cases h
      exact ⟨isFinite_of_firstFinite hfound, hdoubles hhigh, hdoubles hlow, htimes htime⟩
  · cases h

theorem finite?_ofFloat (h : x.isFinite = true) : (Json.ofFloat x).finite? = .ok (some x) := by
  change Except.ok (if x.isFinite then some x else none) = _
  rw [if_pos h]

theorem finite?_ofOption {value : Option Float} (h : ∀ x ∈ value, x.isFinite = true) :
    (Json.ofOption .ofFloat value).finite? = .ok value := by
  cases value with
  | none => rfl
  | some x => exact finite?_ofFloat (h x rfl)

theorem readTime_ofOption {time : Option Int} (h : ∀ t ∈ time, IsExact t) :
    readTime (Json.ofOption .ofInt time) = .ok (time.map reread) := by
  cases time with
  | none => rfl
  | some t =>
    have ht := h t rfl
    have hfinite := Binary64.isFinite_ofInt ht
    have hread : (Json.ofInt t).finite? = .ok (some (Binary64.ofInt t)) := by
      have htoFloat : Number.toFloat (.int t) = .ok (Binary64.ofInt t) :=
        if_neg (by simp [Binary64.isInf_of_isFinite hfinite])
      change (Number.toFloat (.int t)).map _ = _
      rw [htoFloat]
      exact congrArg Except.ok (if_pos hfinite)
    change (Json.ofInt t).finite?.map _ = _
    rw [hread]
    exact congrArg (fun t => Except.ok (some t)) (promote_ofInt ht)

theorem read_object {fields : Fields} {price : Float} {time : Option Int} {high low : Option Float}
    (hprice : firstFinite fields priceKeys = .ok (some price))
    (htime : readTime (firstGiven fields timeKeys) = .ok time)
    (hhigh : ((Fields.get? fields "high").getD (Fields.get fields "h")).finite? = .ok high)
    (hlow : ((Fields.get? fields "low").getD (Fields.get fields "l")).finite? = .ok low) :
    read (.object fields) = .ok (some { time, price, high, low }) := by
  simp only [read, hprice, ok_bind, htime, hhigh, hlow]
  rfl

/-- The fields of a bar that is stored. -/
def storedFields (b : Bar) : Fields :=
  [("time", Json.ofOption .ofInt b.time), ("price", .ofFloat b.price)]
    ++ (b.high.map fun x => ("high", Json.ofFloat x)).toList
    ++ (b.low.map fun x => ("low", Json.ofFloat x)).toList

theorem get_storedFields (b : Bar) : Fields.get b.storedFields "live_price" = .null ∧
    Fields.get b.storedFields "close" = .null ∧
      Fields.get b.storedFields "price" = .ofFloat b.price := by
  obtain ⟨time, price, high, low⟩ := b
  cases high <;> cases low <;> exact ⟨rfl, rfl, rfl⟩

theorem firstFinite_storedFields (h : b.price.isFinite = true) :
    firstFinite b.storedFields priceKeys = .ok (some b.price) := by
  obtain ⟨hlive, hclose, hprice⟩ := get_storedFields b
  have hnull : Json.null.finite? = .ok none := rfl
  rw [priceKeys, firstFinite, hlive, hnull, ok_bind]
  dsimp only
  rw [firstFinite, hclose, hnull, ok_bind]
  dsimp only
  rw [firstFinite, hprice, finite?_ofFloat h]
  rfl

theorem firstGiven_storedFields (b : Bar) :
    firstGiven b.storedFields timeKeys = Json.ofOption .ofInt b.time := by
  obtain ⟨time, price, high, low⟩ := b
  cases time <;> cases high <;> cases low <;> rfl

theorem high_storedFields (b : Bar) :
    (Fields.get? b.storedFields "high").getD (Fields.get b.storedFields "h") =
      Json.ofOption .ofFloat b.high := by
  obtain ⟨time, price, high, low⟩ := b
  cases high <;> cases low <;> rfl

theorem low_storedFields (b : Bar) :
    (Fields.get? b.storedFields "low").getD (Fields.get b.storedFields "l") =
      Json.ofOption .ofFloat b.low := by
  obtain ⟨time, price, high, low⟩ := b
  cases high <;> cases low <;> rfl

/-- **A bar that is stored is read with its prices, and its time is read once more.** -/
theorem read_toJson (h : b.WellRead) :
    read b.toJson = .ok (some { b with time := b.time.map reread }) := by
  have hfields : b.toJson = .object b.storedFields := rfl
  rw [hfields]
  refine read_object (firstFinite_storedFields h.price) ?_ ?_ ?_
  · rw [firstGiven_storedFields]
    exact readTime_ofOption h.time
  · rw [high_storedFields]
    exact finite?_ofOption h.high
  · rw [low_storedFields]
    exact finite?_ofOption h.low

theorem reread_eq_iff : reread t = t ↔ ¬(0 < t ∧ t < 1000000000000) := by
  rw [reread]
  split <;> omega

/-- A bar is read again as it is if and only if it is one that can be read, and its time is not
taken for seconds. -/
theorem read_toJson_eq_iff : read b.toJson = .ok (some b) ↔
    b.WellRead ∧ ∀ t ∈ b.time, ¬(0 < t ∧ t < 1000000000000) := by
  have hkept : { b with time := b.time.map reread } = b ↔
      ∀ t ∈ b.time, ¬(0 < t ∧ t < 1000000000000) := by
    obtain ⟨time, price, high, low⟩ := b
    simp only [mk.injEq, and_true]
    cases time with
    | none => simp
    | some t => simp [reread_eq_iff]
  constructor
  · intro h
    have hwell := wellRead_of_read h
    rw [read_toJson hwell, Except.ok.injEq, Option.some.injEq, hkept] at h
    exact ⟨hwell, h⟩
  · rintro ⟨hwell, htime⟩
    rw [read_toJson hwell, hkept.2 htime]

/-- **Bars survive being stored and read again, but for the times of the first trillion milliseconds
after 1970**, the last of which is in 2001: such a time is taken for seconds, and all else stays.
This holds of all bars that were read. A bar that is an entry itself need not be one that can be
read; then it does not survive. -/
theorem stored_survives (h : Simulation.readEntry entry = .ok (some b)) :
    (∀ j, entry = .inl j → b.WellRead) ∧
      (b.WellRead → read b.toJson = .ok (some { b with time := b.time.map reread })) ∧
      (read b.toJson = .ok (some b) ↔
        b.WellRead ∧ ∀ t ∈ b.time, ¬(0 < t ∧ t < 1000000000000)) := by
  refine ⟨?_, read_toJson, read_toJson_eq_iff⟩
  rintro j rfl
  exact wellRead_of_read h

/-- A bar of the first day of 2000, with a high. -/
def millennium : Json :=
  .object [("t", .string "2000-01-01"), ("c", .ofFloat 1.0), ("h", .ofFloat 1.5)]

theorem stored_survives_millennium :
    Simulation.readEntry (.inl millennium) =
        .ok (some { time := some 946684800000, price := 1.0, high := some 1.5 }) ∧
      read (toJson { time := some 946684800000, price := 1.0, high := some 1.5 }) =
        .ok (some { time := some 946684800000000, price := 1.0, high := some 1.5 }) ∧
      ¬(read (toJson { time := some 946684800000, price := 1.0, high := some 1.5 }) =
        .ok (some { time := some 946684800000, price := 1.0, high := some 1.5 })) := by
  have hread : Simulation.readEntry (.inl millennium) =
      .ok (some { time := some 946684800000, price := 1.0, high := some 1.5 }) := by rfl
  obtain ⟨hwell, hagain, hsame⟩ := stored_survives hread
  exact ⟨hread, hagain (hwell _ rfl), fun h => (hsame.1 h).2 _ rfl (by decide)⟩

/-- **Milliseconds with ten digits, as they were in the spring of 1970, are taken for seconds.** -/
theorem early_time_changed : ∃ b c,
    read (.array [.string "1970-04-01", .ofFloat 1.0]) = .ok (some b) ∧
    read b.toJson = .ok (some c) ∧ b.time = some 7776000000 ∧ c.time = some 7776000000000 :=
  ⟨_, _, rfl, rfl, rfl, rfl⟩

end Bar

end StrategyGraph
