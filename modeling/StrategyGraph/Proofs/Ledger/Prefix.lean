import StrategyGraph.Proofs.Ledger.Greedy

/-!
# The first bars of a run

A run that goes on to its end keeps what it has come to on its way.

* `Statement.Begins` : a statement begins with an account if its first equity values, the trades
  that have ended by then and the purchases are those of the account;
* `Market.Follows.begins` : the statement of a run begins with the account that plays its first
  bars;
* `Market.Follows.run_stopped` : a run that is stopped comes to the beginning of the one that is
  not.
-/

namespace StrategyGraph.Ledger

variable {α : Type}

/-- The trades that have ended before bar `k`. -/
def endedBefore (k : Nat) (ts : List (Trade α)) : List (Trade α) :=
  ts.filter fun t => t.exit.any fun exit => exit.index < (k : Int)

/-- Bars and prices of the purchases before bar `k`. -/
def entriesBefore (k : Nat) (ts : List (Trade α)) : List (Int × α) :=
  (ts.filter fun t => t.entryIndex < (k : Int)).map Trade.entry

@[simp]
theorem endedBefore_append (k : Nat) (ts us : List (Trade α)) :
    endedBefore k (ts ++ us) = endedBefore k ts ++ endedBefore k us :=
  List.filter_append ..

@[simp]
theorem entriesBefore_append (k : Nat) (ts us : List (Trade α)) :
    entriesBefore k (ts ++ us) = entriesBefore k ts ++ entriesBefore k us := by
  simp [entriesBefore]

@[simp]
theorem endedBefore_opened (price : Nat → α) (k e : Nat) : endedBefore k [.opened price e] = [] :=
  rfl

theorem endedBefore_ended [Sub α] [Mul α] [Div α] [NatCast α] (price : Nat → α) (fee : α)
    {k e x : Nat} (h : k ≤ x) : endedBefore k [.ended price fee e x] = [] := by
  refine List.filter_eq_nil_iff.2 fun t ht => ?_
  obtain rfl := List.mem_singleton.1 ht
  show ¬ decide ((x : Int) < k) = true
  rw [decide_eq_true_eq]
  omega

namespace Statement

/-- The first `k` bars of a statement are what an account has come to. -/
structure Begins (s : Statement α) (k : Nat) (a : Account α) : Prop where
  equity : s.equity.take k = a.equity.toList
  ended : endedBefore k s.trades = a.trades.toList
  entries : entriesBefore k s.trades = a.allTrades.map Trade.entry

/-- The statement of a run that is stopped before bar `k`. -/
def stoppedAt [NatCast α] (s : Statement α) (k : Nat) : Statement α :=
  { equity := s.equity.take k
    trades := endedBefore k s.trades
    summary := .zero
    stopped := true }

end Statement

namespace Account

variable [Sub α] [Mul α] [Div α] [NatCast α] {fee : α} {trader : Trader (Except Fault) α}

/-- A trader who does not want to stop at any of the bars plays them all. -/
theorem stopped_play {a : Account α} {index : Nat} {prices : List α} {played : Played α}
    (h : a.play fee trader index prices = .ok played)
    (hs : ∀ i, index ≤ i → i < index + prices.length → trader.stops i = .ok false) :
    played.stopped = false := by
  induction prices generalizing a index with
  | nil =>
    obtain rfl : _ = played := Except.ok.inj h
    rfl
  | cons price prices ih =>
    rw [play, hs index (Nat.le_refl _) (by simp)] at h
    obtain ⟨acts, -, h⟩ := bind_eq_ok (x := decision ..).1 h
    exact ih h fun i h₁ h₂ => hs i (by omega) (by rw [List.length_cons]; omega)

theorem play_split {a : Account α} {prices : List α} {k : Nat} (hk : k < prices.length)
    (hs : ∀ i < k, trader.stops i = .ok false) :
    a.play fee trader 0 prices =
      a.advance fee trader 0 (prices.take k) >>= fun b =>
        b.play fee trader k (prices.drop k) := by
  have hlength : (prices.take k).length = k := List.length_take_of_le hk.le
  have happend : a.play fee trader 0 (prices.take k ++ prices.drop k) = _ :=
    play_append (by simpa using hk) fun i _ hi => hs i (by omega)
  rwa [List.take_append_drop, hlength, Nat.zero_add] at happend

/-- Only whether the trader wants to stop at the bars that are played matters. -/
theorem play_stops_congr {a : Account α} {index : Nat} {prices : List α}
    {stops : Nat → Except Fault Bool}
    (hs : ∀ i, index ≤ i → i < index + prices.length → stops i = trader.stops i) :
    a.play fee { trader with stops } index prices = a.play fee trader index prices := by
  induction prices generalizing a index with
  | nil => rfl
  | cons price prices ih =>
    rw [play, play]
    change (stops index >>= _) = _
    rw [hs index (Nat.le_refl _) (by simp)]
    congr 1
    funext stop
    cases stop with
    | true => rfl
    | false =>
      have hrest : ∀ acts, (a.step fee index price acts).play fee { trader with stops } (index + 1)
          prices = (a.step fee index price acts).play fee trader (index + 1) prices := fun acts =>
        ih fun i h₁ h₂ => hs i (by omega) (by rw [List.length_cons]; omega)
      simp only [hrest]
      rfl

theorem Reached.endedBefore {price : Nat → α} {index : Nat} {a : Account α}
    (ha : a.Reached price fee index) : endedBefore index a.trades.toList = a.trades.toList := by
  refine List.filter_eq_self.2 fun t ht => ?_
  obtain ⟨e, x, -, hx, rfl⟩ := ha.ended t ht
  show decide ((x : Int) < index) = true
  rw [decide_eq_true_eq]
  omega

theorem Reached.entriesBefore {price : Nat → α} {index : Nat} {a : Account α}
    (ha : a.Reached price fee index) :
    entriesBefore index a.trades.toList = a.trades.toList.map Trade.entry := by
  refine congrArg (List.map Trade.entry) (List.filter_eq_self.2 fun t ht => ?_)
  obtain ⟨e, x, hex, hx, rfl⟩ := ha.ended t ht
  show decide ((e : Int) < index) = true
  rw [decide_eq_true_eq]
  omega

end Account

namespace Market

variable {m : Market α} [Sub α] [Mul α] [Div α] [NatCast α] {fee : α}
  {trader : Trader (Except Fault) α} {prices : List α}

theorem Pending.endedBefore {holding : Holding α} {s : Nat} {ts : List (Trade α)}
    (h : m.Pending fee holding s ts) (hs : s < m.bars) : endedBefore s ts = [] := by
  refine List.filter_eq_nil_iff.2 fun t ht => ?_
  obtain ⟨exit, hexit, hge⟩ := h.exit_ge hs t ht
  rw [hexit, Option.any_some, decide_eq_true_eq]
  omega

variable [IntCast α] [LT α] [DecidableLT α] {capital : α} {statement : Statement α} {k : Nat}

/-- **A run keeps what it has come to**: its statement begins with the account that has played the
first bars, if there is a later one. -/
theorem Follows.begins (hm : m.Follows trader prices) (hs : ∀ i, trader.stops i = .ok false)
    (h : run fee capital trader prices = .ok statement) (hk : k < prices.length) :
    ∃ b, (Account.opened capital).advance fee trader 0 (prices.take k) = .ok b ∧
      statement.Begins k b := by
  obtain ⟨played, hplayed, rfl⟩ := run_eq_ok.1 h
  have hstopped := Account.stopped_play hplayed fun i _ _ => hs i
  rw [Account.play_split hk fun i _ => hs i] at hplayed
  obtain ⟨b, hb, hplayed⟩ := bind_eq_ok.1 hplayed
  have hreached : b.Reached m.price fee k := by
    have hfirst : ∀ i p, (prices.take k)[i]? = some p → m.price (0 + i) = p := by
      intro i p hi
      rw [List.getElem?_take] at hi
      split at hi
      · rw [Nat.zero_add, hm.price hi]
      · cases hi
    have := (Account.reached_opened capital).advance hfirst hb
    rwa [List.length_take_of_le hk.le, Nat.zero_add] at this
  obtain ⟨ts, hpending, hts⟩ := trades_settled hm (List.ne_nil_of_length_pos (by omega)) hreached
    hplayed hstopped
  -- The rest of the run revises only values from bar `k` on, and adds trades that end there.
  have hbars : k < m.bars := hm.bars ▸ hk
  refine ⟨b, hb, ?_, ?_, ?_⟩
  · obtain ⟨htake, -⟩ := Played.take_equity_settled prices hplayed hstopped (by simpa using hk)
      hreached.length.ge
    rw [Statement.of, htake, List.take_of_length_le hreached.length.le]
  · rw [Statement.of, hts]
    rw [endedBefore_append, hreached.endedBefore, hpending.endedBefore hbars, List.append_nil]
  · rw [Statement.of, hts, entriesBefore_append, hreached.entriesBefore, Account.allTrades,
      List.map_append]
    exact congrArg _ (hpending.filter_entry hbars)

/-- **A run that is stopped comes to the beginning** of the run that is not. -/
theorem Follows.run_stopped (hm : m.Follows trader prices) (hs : ∀ i, trader.stops i = .ok false)
    (h : run fee capital trader prices = .ok statement) (hk : k < prices.length) :
    run fee capital { trader with stops := fun i => .ok (decide (k ≤ i)) } prices =
      .ok (statement.stoppedAt k) := by
  obtain ⟨b, hb, hbegins⟩ := hm.begins hs h hk
  refine run_eq_ok.2 ⟨⟨b, true⟩, ?_, ?_⟩
  · have hadvance : (Account.opened capital).advance fee
        { trader with stops := fun i => .ok (decide (k ≤ i)) } 0 (prices.take k) =
          (Account.opened capital).advance fee trader 0 (prices.take k) :=
      Account.advance_congr (fun _ _ _ => rfl) (fun _ _ _ _ => rfl)
    rw [Account.play_split hk fun i hi => by simp only [Nat.not_le.2 hi, decide_false], hadvance,
      hb]
    exact Account.play_stopped (by simpa using hk) (by simp)
  · simp only [Statement.of, Played.settled, Statement.stoppedAt, hbegins.equity, hbegins.ended,
      ↓reduceIte]

variable (trader) in
theorem run_not_stopped (hs : ∀ i, trader.stops i = .ok false) (hk : prices.length ≤ k) :
    run fee capital { trader with stops := fun i => .ok (decide (k ≤ i)) } prices =
      run fee capital trader prices := by
  rw [run, run, Account.play_stops_congr fun i _ hi => ?_]
  rw [hs, decide_eq_false]
  omega

end Market

end StrategyGraph.Ledger
