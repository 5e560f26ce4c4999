import StrategyGraph.Proofs.Expression.References
import StrategyGraph.Proofs.Json.Legible
import StrategyGraph.Proofs.Keyed
import StrategyGraph.Walk.Operand

/-!
# What operands stand for

An operand fails only through its label or its value, never through the bar at which it is read. A
text is evaluated over the names that it refers to: the price is looked up only for a text that
mentions it, and a text that mentions the entry price stands for nothing as long as no trade is
open.

The label of an operand is put in lower case before its text is looked at. Labels that are no texts,
which operands take over from the parameters of a payload as they are, end the lookup there.

* `BarContext.Complete` : what is known at a bar when a strategy is played;
* `Binding.Sound` : the operands that have a value there, or stand for none
  (`Operand.succeeds_resolve`);
* `Operand.prices` : all that a text may refer to at a bar, and over which it has its value
  (`Operand.ofText_eq`);
* `Binding.IsText` : operands that are texts, and name no series;
* `Operand.resolve_text` : **these stand for the values of their texts, if they are labelled by texts
  or not at all, and only texts that mention the entry price depend on it;** with any other label
  they fail.
-/

namespace StrategyGraph

/-! ### Names of series -/

namespace Json

variable {names : List String} {j : Json}

/-- The value is one of the names of series. -/
def Names (names : List String) (j : Json) : Prop := ∃ name ∈ names, name ≠ "" ∧ j = .string name

theorem Names.isTruthy (h : j.Names names) : j.isTruthy = true := by
  obtain ⟨name, -, hname, rfl⟩ := h
  simpa [Json.isTruthy] using hname

/-- The value serves as a label: it is a text, or counts as absent. -/
def IsLabel (j : Json) : Prop := j.isTruthy = true → ∃ s, j = .string s

theorem isLabel_of_isTruthy_eq_false (h : j.isTruthy = false) : j.IsLabel :=
  fun htruthy => absurd (h.symm.trans htruthy) Bool.false_ne_true

end Json

/-! ### Operands -/

/-- What is known at a bar when a strategy is played: prices are doubles, and so are the values of
all series, none of which ends before the bar. -/
structure BarContext.Complete (ctx : BarContext) : Prop where
  /-- The close of the bar is no integer beyond all doubles, -/
  price : Succeeds ctx.price.toFloat
  /-- nor is the price at which the trade was entered. -/
  entry : ∀ n, ctx.entry = some n → Succeeds n.toFloat
  /-- Each series has a value at the bar, or a gap. -/
  reaches : ∀ s ∈ ctx.series, Succeeds (valueAt s.2 ctx.index)
  /-- What series list are no integers beyond all doubles either. -/
  values : ∀ s ∈ ctx.series, ∀ n, some n ∈ s.2 → Succeeds n.toFloat

/-- The names of the series that are known. -/
def BarContext.names (ctx : BarContext) : List String := ctx.series.map Prod.fst

/-- The operand has a value, or stands for none, where series have these names. -/
structure Binding.Sound (names : List String) (b : Binding) : Prop where
  /-- No list and no object is looked for among the series. -/
  keys : UntilFound (fun key => key.isTruthy = true → ¬key.IsNested) (Json.Names names) b.keys
  /-- If it names no series, then it is no integer beyond all doubles. -/
  value : (∀ key ∈ b.keys, ¬key.Names names) → ¬b.value.IsTooLarge
  /-- If it names no series and is no number, then it is labelled by a text, if at all. -/
  label : (∀ key ∈ b.keys, ¬key.Names names) → (∀ n, b.value ≠ .number n) → b.label.IsLabel

theorem mem_of_valueAt {α : Type} {items : List α} {place : Int} {a : α}
    (h : valueAt items place = .ok a) : a ∈ items := by
  rw [valueAt] at h
  generalize (if place < 0 then place + items.length else place) = fromStart at h
  split at h
  · cases h
  · split at h
    · next item hitem =>
      cases h
      exact List.mem_of_getElem? hitem
    · cases h

namespace Operand

variable {ctx : BarContext} {key : Json} {keys : List Json} {b : Binding} {s name : String}

theorem isSome_lookup (htruthy : key.isTruthy = true) :
    (key.string?.bind fun name => ctx.series.lookup name).isSome ↔ key.Names ctx.names := by
  cases key with
  | string name =>
    have hname : name ≠ "" := by simpa [Json.isTruthy] using htruthy
    simp [Json.string?, Json.Names, BarContext.names, List.lookup_isSome_iff, hname]
  | _ => simp [Json.string?, Json.Names]

theorem succeeds_seriesNamed? : Succeeds (seriesNamed? ctx keys) ↔
    UntilFound (fun key => key.isTruthy = true → ¬key.IsNested) (Json.Names ctx.names) keys := by
  induction keys with
  | nil => simp [seriesNamed?, UntilFound]
  | cons key keys ih =>
    rw [seriesNamed?, UntilFound]
    cases htruthy : key.isTruthy with
    | false =>
      have hnot : ¬key.Names ctx.names := fun h => by simp [h.isTruthy] at htruthy
      simp [hnot, ih]
    | true =>
      rw [forall_prop_of_true rfl]
      refine succeeds_bind_and Json.succeeds_requireKey fun _ _ => ?_
      rw [← isSome_lookup htruthy, ← ih]
      cases key.string?.bind fun name => ctx.series.lookup name with
      | none => simp
      | some series => exact iff_of_true (succeeds_ok _) fun h => absurd rfl h

/-- The series that is found is a known one, and none is found if and only if no key names one. -/
theorem seriesNamed?_ok {found : Option (Series Number)} (h : seriesNamed? ctx keys = .ok found) :
    (found = none ↔ ∀ key ∈ keys, ¬key.Names ctx.names) ∧
      ∀ series, found = some series → ∃ name, (name, series) ∈ ctx.series := by
  induction keys with
  | nil =>
    cases h
    simp
  | cons key keys ih =>
    rw [seriesNamed?] at h
    rw [List.forall_mem_cons]
    cases htruthy : key.isTruthy with
    | false =>
      have hnot : ¬key.Names ctx.names := fun hnames => by simp [hnames.isTruthy] at htruthy
      simp only [htruthy, Bool.not_false, ↓reduceIte] at h
      simpa [hnot] using ih h
    | true =>
      simp only [htruthy, Bool.not_true, Bool.false_eq_true, ↓reduceIte] at h
      obtain ⟨-, -, h⟩ := bind_eq_ok.1 h
      rw [← isSome_lookup htruthy]
      cases hlookup : key.string?.bind fun name => ctx.series.lookup name with
      | none =>
        rw [hlookup] at h
        simpa using ih h
      | some series =>
        rw [hlookup] at h
        cases h
        obtain ⟨name, -, hname⟩ := Option.bind_eq_some_iff.1 hlookup
        refine ⟨by simp, fun _ heq => ⟨name, ?_⟩⟩
        cases heq
        exact mem_of_lookup hname

/-- All that a text may refer to at a bar: the price by each of its names, and the entry price of the
open trade if there is one. -/
def prices (ctx : BarContext) : Expression.Variables Float := fun name =>
  if name ∈ priceNames then some ctx.price.toFloat
  else if name = entryName then ctx.entry.map Number.toFloat
  else none

theorem environment_eq (h : Expression.references s name = true) :
    environment ctx s name = prices ctx name := by
  rw [environment, prices]
  by_cases hprice : name ∈ priceNames
  · have hany : priceNames.any (Expression.references s) = true :=
      List.any_eq_true.2 ⟨name, hprice, h⟩
    rw [if_pos ⟨hprice, hany⟩, if_pos hprice]
  · rw [if_neg fun hboth => hprice hboth.1, if_neg hprice]
    by_cases hname : name = entryName
    · rw [if_pos ⟨hname, hname ▸ h⟩, if_pos hname]
    · rw [if_neg fun hboth => hname hboth.1, if_neg hname]

theorem succeeds_prices (hprice : Succeeds ctx.price.toFloat)
    (hentry : ∀ n, ctx.entry = some n → Succeeds n.toFloat) {v : Except Fault Float}
    (hv : prices ctx name = some v) : Succeeds v := by
  rw [prices] at hv
  split at hv
  · cases hv
    exact hprice
  · split at hv
    · obtain ⟨n, hn, rfl⟩ := Option.map_eq_some_iff.1 hv
      exact hentry n hn
    · cases hv

theorem ofText_eq (hprice : Succeeds ctx.price.toFloat)
    (hentry : ∀ n, ctx.entry = some n → Succeeds n.toFloat) :
    (∃ x, Expression.evaluate s (prices ctx) = .ok x ∧ ofText ctx s = .ok (some (.float x))) ∨
      ∃ f, Expression.evaluate s (prices ctx) = .error (.expression f) ∧
        ofText ctx s = .ok none := by
  have hevaluate : Expression.evaluate s (environment ctx s) =
      Expression.evaluate s (prices ctx) := Expression.evaluate_congr fun _ => environment_eq
  rw [ofText, hevaluate]
  cases hvalue : Expression.evaluate s (prices ctx) with
  | error fault =>
    obtain ⟨f, rfl⟩ := Expression.evaluate_error (fun _ _ => succeeds_prices hprice hentry) hvalue
    exact .inr ⟨f, rfl, ite_self _⟩
  | ok x =>
    -- The text would have no value if it mentioned an entry price that is missing.
    refine .inl ⟨x, rfl, if_neg fun h => ?_⟩
    obtain ⟨hmentions, hnone⟩ := Bool.and_eq_true_iff.1 h
    obtain ⟨v, hv⟩ := Expression.evaluate_known hvalue hmentions
    change ctx.entry.map Number.toFloat = some v at hv
    rw [Option.isNone_iff_eq_none.1 hnone] at hv
    cases hv

theorem succeeds_ofText (hctx : ctx.Complete) : Succeeds (ofText ctx s) := by
  rcases ofText_eq hctx.price hctx.entry with ⟨x, -, h⟩ | ⟨f, -, h⟩
  · exact ⟨_, h⟩
  · exact ⟨_, h⟩

theorem labelText_cases (label : Json) :
    label.IsLabel ∧ (∃ text, labelText label = .ok text) ∨
      ¬label.IsLabel ∧ labelText label = .error (.noAttribute label.typeName "lower") := by
  rw [labelText, Json.orElse, Json.IsLabel]
  cases htruthy : label.isTruthy with
  | false => simp
  | true => cases label <;> simp

theorem succeeds_labelText : Succeeds (labelText b.label) ↔ b.label.IsLabel := by
  rcases labelText_cases b.label with ⟨hlabel, htext⟩ | ⟨hlabel, hfault⟩
  · exact iff_of_true htext hlabel
  · rw [hfault]
    exact iff_of_false (not_succeeds_error _) hlabel

theorem succeeds_ofValue (hctx : ctx.Complete) : Succeeds (ofValue ctx b) ↔
    ¬b.value.IsTooLarge ∧ ((∀ n, b.value ≠ .number n) → b.label.IsLabel) := by
  by_cases hnumber : ∃ n, b.value = .number n
  · obtain ⟨n, hn⟩ := hnumber
    have hofNumber : Succeeds (ofNumber n) ↔ ¬(Json.number n).IsTooLarge := by
      rw [ofNumber, succeeds_map]
      exact Json.succeeds_finite? (j := .number n)
    rw [ofValue, hn]
    exact hofNumber.trans (and_iff_left fun h => absurd rfl (h n)).symm
  · have hnumber : ∀ n, b.value ≠ .number n := fun n hn => hnumber ⟨n, hn⟩
    have hlarge : ¬b.value.IsTooLarge := fun ⟨n, hn, _⟩ => hnumber (.int n) hn
    have hvalue : ofValue ctx b = (labelText b.label >>= fun label =>
        if textOf b.value = "" then
          pure (if Text.includes label "close" then some ctx.price else none)
        else ofText ctx (textOf b.value)) := by
      rw [ofValue]
      split
      · next n hn => exact absurd hn (hnumber n)
      · rfl
    rw [hvalue, and_iff_right hlarge, forall_prop_of_true hnumber, ← succeeds_labelText]
    refine succeeds_bind_iff fun label => ?_
    split
    · exact succeeds_ok _
    · exact succeeds_ofText hctx

/-- **Which operands have a value at a bar, or stand for none.** -/
theorem succeeds_resolve (hctx : ctx.Complete) {operand : Option Binding} :
    Succeeds (resolve ctx operand) ↔
      ∀ b, operand = some b → b.bound = true → b.Sound ctx.names := by
  cases hbound : operand.filter Binding.bound with
  | none =>
    rw [resolve, hbound]
    refine iff_of_true (succeeds_ok _) ?_
    rintro b rfl hb
    simp [hb] at hbound
  | some b =>
    obtain ⟨hoperand, hb⟩ := Option.filter_eq_some_iff.1 hbound
    have hsound : (∀ b, operand = some b → b.bound = true → b.Sound ctx.names) ↔
        b.Sound ctx.names := by
      simp [hoperand, hb]
    rw [resolve, hbound, hsound]
    change Succeeds (seriesNamed? ctx b.keys >>= _) ↔ _
    rw [succeeds_bind, succeeds_seriesNamed?]
    constructor
    · rintro ⟨hkeys, h⟩
      obtain ⟨found, hfound⟩ := succeeds_seriesNamed?.2 hkeys
      have hvalue : (∀ key ∈ b.keys, ¬key.Names ctx.names) → Succeeds (ofValue ctx b) := by
        intro hnot
        have hnone : found = none := (seriesNamed?_ok hfound).1.2 hnot
        simpa [hnone] using h found hfound
      exact ⟨hkeys, fun hnot => ((succeeds_ofValue hctx).1 (hvalue hnot)).1,
        fun hnot => ((succeeds_ofValue hctx).1 (hvalue hnot)).2⟩
    · intro h
      refine ⟨h.keys, fun found hfound => ?_⟩
      obtain ⟨hnone, hsome⟩ := seriesNamed?_ok hfound
      cases found with
      | none =>
        have hnot := hnone.1 rfl
        exact (succeeds_ofValue hctx).2 ⟨h.value hnot, h.label hnot⟩
      | some series =>
        -- The series has a place for the bar, and what stands there is a double or nothing.
        obtain ⟨name, hmem⟩ := hsome series rfl
        refine succeeds_bind.2 ⟨hctx.reaches _ hmem, fun value hvalue => ?_⟩
        cases value with
        | none => exact succeeds_ok _
        | some n =>
          have hn := hctx.values _ hmem n (mem_of_valueAt hvalue)
          exact succeeds_map.2 (succeeds_map.2 hn)

end Operand

/-! ### Operands that are texts -/

/-- The operand is a text that names no series, and its parameter names none either. -/
structure Binding.IsText (names : List String) (b : Binding) (s : String) : Prop where
  /-- Its parameter exists. -/
  bound : b.bound = true
  /-- Its value is the text, -/
  value : b.value = .string s
  /-- which is not blank. -/
  nonblank : Text.strip s ≠ ""
  /-- Neither the parameter nor the label nor the text names a series. -/
  unnamed : ∀ key ∈ b.keys, ¬key.Names names

/-- Each of the names under which a series is looked for can be a key, or counts as absent. -/
theorem Binding.IsText.not_isNested {names : List String} {b : Binding} {s : String}
    (h : b.IsText names s) (hlabel : b.label.IsLabel) {key : Json} (hkey : key ∈ b.keys)
    (htruthy : key.isTruthy = true) : ¬key.IsNested := by
  rw [Binding.keys, h.value] at hkey
  simp only [Json.string?, Option.map_some, Option.toList_some, List.cons_append, List.nil_append,
    List.mem_cons, List.not_mem_nil, or_false] at hkey
  rcases hkey with rfl | rfl | rfl
  · cases b.parameterId <;> simp [Json.ofOption, Json.IsNested]
  · obtain ⟨l, hl⟩ := hlabel htruthy
    simp [hl, Json.IsNested]
  · simp [Json.IsNested]

namespace Operand

variable {ctx : BarContext} {key : Json} {keys : List Json} {b : Binding} {s : String}

/-- The text mentions the entry price. -/
def MentionsEntry (s : String) : Prop :=
  ∃ tokens, Expression.tokenize s = .ok tokens ∧ ⟨.name, entryName.toList⟩ ∈ tokens

theorem ofText_entry (h : Expression.references s entryName = false) (entry : Option Number) :
    ofText { ctx with entry } s = ofText ctx s := by
  have henvironment : environment { ctx with entry } s = environment ctx s := by
    funext name
    simp [environment, h]
  simp only [ofText, h, Bool.false_and, henvironment]

theorem seriesNamed?_cons (h : ¬key.Names ctx.names) : seriesNamed? ctx (key :: keys) =
    if key.isTruthy then key.requireKey >>= fun _ => seriesNamed? ctx keys
    else seriesNamed? ctx keys := by
  rw [seriesNamed?]
  cases htruthy : key.isTruthy with
  | false => rfl
  | true =>
    have hnone : (key.string?.bind fun name => ctx.series.lookup name) = none := by
      rwa [← Option.not_isSome_iff_eq_none, isSome_lookup htruthy]
    rw [hnone]
    rfl

/-- The fault with which a value that is no label ends the lookup of a text. -/
def labelFault (label : Json) : Fault :=
  match label with
  | .array _ | .object _ => .unhashable label.typeName
  | _ => .noAttribute label.typeName "lower"

theorem seriesNamed?_of_unnamed (hkeys : ∀ key ∈ keys, key.isTruthy = true → ¬key.IsNested)
    (hunnamed : ∀ key ∈ keys, ¬key.Names ctx.names) : seriesNamed? ctx keys = .ok none := by
  have hsucceeds : Succeeds (seriesNamed? ctx keys) := succeeds_seriesNamed?.2 (.of_forall hkeys)
  obtain ⟨found, hfound⟩ := hsucceeds
  rw [hfound, (seriesNamed?_ok hfound).1.2 hunnamed]

/-- The series of an operand is looked for, its label is put in lower case, and then its text is
evaluated without the blanks around it. -/
theorem resolve_of_isText (h : b.IsText ctx.names s) : resolve ctx (some b) = (do
    let _ ← seriesNamed? ctx b.keys
    let _ ← labelText b.label
    ofText ctx (Text.strip s)) := by
  have htext : textOf (.string s) = Text.strip s := rfl
  have hvalue : ofValue ctx b = (labelText b.label >>= fun _ => ofText ctx (Text.strip s)) := by
    rw [ofValue, h.value]
    simp only [htext, if_neg h.nonblank]
  rw [resolve, Option.filter_some, if_pos h.bound]
  change (seriesNamed? ctx b.keys >>= _) = _
  cases hfound : seriesNamed? ctx b.keys with
  | error fault => rfl
  | ok found =>
    obtain rfl : found = none := (seriesNamed?_ok hfound).1.2 h.unnamed
    rw [ok_bind, ok_bind, hvalue]

theorem resolve_eq_ofText (h : b.IsText ctx.names s) (hlabel : b.label.IsLabel) :
    resolve ctx (some b) = ofText ctx (Text.strip s) := by
  obtain ⟨text, htext⟩ := succeeds_labelText.2 hlabel
  rw [resolve_of_isText h, seriesNamed?_of_unnamed (fun _ => h.not_isNested hlabel) h.unnamed,
    ok_bind, htext, ok_bind]

/-- What is no label ends the lookup of a text: lists and objects when a series is looked for, and
other values when they are put in lower case. -/
theorem resolve_of_not_isLabel (h : b.IsText ctx.names s) (hlabel : ¬b.label.IsLabel) :
    resolve ctx (some b) = .error (labelFault b.label) := by
  obtain ⟨htruthy, -⟩ := Classical.not_imp.1 hlabel
  have hkeys : b.keys = [Json.ofOption .string b.parameterId, b.label, .string (Text.strip s)] := by
    simp [Binding.keys, h.value, Json.string?]
  have hid : (Json.ofOption .string b.parameterId).requireKey = .ok () := by
    cases b.parameterId <;> rfl
  have hunnamed := h.unnamed
  rw [hkeys] at hunnamed
  have hseries : seriesNamed? ctx b.keys = b.label.requireKey >>= fun _ => .ok none := by
    rw [hkeys, seriesNamed?_cons (hunnamed _ (.head _)), hid, ok_bind, ite_self,
      seriesNamed?_cons (hunnamed _ (.tail _ (.head _))), if_pos htruthy]
    rw [seriesNamed?_of_unnamed (by simp [Json.IsNested])
      fun key hkey => hunnamed key (.tail _ (.tail _ hkey))]
  have hfault := ((labelText_cases b.label).resolve_left fun hl => hlabel hl.1).2
  rw [resolve_of_isText h, hseries, hfault]
  cases b.label <;> rfl

/-- **An operand that is a text stands for the value of the text** over the price of the bar and the
entry price of the open trade, if there is one: for a finite double, and for nothing if the text has
no value. An entry price changes nothing about a text that does not mention it.

This is so if the label is a text or counts as absent. An operand with any other label has no value:
the lookup ends with a fault, whatever the text is. -/
theorem resolve_text (hb : b.IsText ctx.names s) (hprice : Succeeds ctx.price.toFloat)
    (hentry : ∀ n, ctx.entry = some n → Succeeds n.toFloat) :
    (b.label.IsLabel →
      ((∃ x, Expression.evaluate s (prices ctx) = .ok x ∧ x.isFinite = true ∧
          resolve ctx (some b) = .ok (some (.float x))) ∨
        ∃ f, Expression.evaluate s (prices ctx) = .error (.expression f) ∧
          resolve ctx (some b) = .ok none) ∧
      (¬MentionsEntry s → ∀ entry, resolve { ctx with entry } (some b) = resolve ctx (some b))) ∧
    (¬b.label.IsLabel → resolve ctx (some b) = .error (labelFault b.label)) := by
  refine ⟨fun hlabel => ⟨?_, fun hmentions entry => ?_⟩, resolve_of_not_isLabel hb⟩
  · rw [resolve_eq_ofText hb hlabel, ← Expression.evaluate_strip]
    rcases ofText_eq hprice hentry (s := Text.strip s) with ⟨x, hx, htext⟩ | hnone
    · exact .inl ⟨x, hx, Expression.isFinite_of_evaluate hx, htext⟩
    · exact .inr hnone
  · have hnot : Expression.references (Text.strip s) entryName = false := by
      rw [Expression.references_strip, Bool.eq_false_iff]
      exact fun h => hmentions (Expression.references_iff.1 h)
    rw [resolve_eq_ofText hb hlabel, ← ofText_entry hnot entry]
    exact resolve_eq_ofText hb hlabel

/-- Two more than the close. -/
def above : Binding := .ofValue (.string "close + 2 ")

/-- A bar at which a trade is open. -/
def holding : BarContext :=
  { index := 1, price := .float 11.0, entry := some (.float 10.0), series := [("high_n", [none])] }

theorem not_mentionsEntry_above : ¬MentionsEntry "close + 2 " := by
  rintro ⟨tokens, htokens, hentry⟩
  have habove : Expression.tokenize "close + 2 " =
      .ok [⟨.name, "close".toList⟩, ⟨.operator, ['+']⟩, ⟨.number, ['2']⟩] := by rfl
  rw [habove] at htokens
  cases htokens
  revert hentry
  decide

theorem isText_above (label : Json) (h : ¬label.Names holding.names) :
    { above with label }.IsText holding.names "close + 2 " := by
  refine ⟨rfl, rfl, by decide, ?_⟩
  have hkeys : { above with label }.keys = [.null, label, .string "close + 2"] := rfl
  rw [hkeys, List.forall_mem_cons, List.forall_mem_cons]
  refine ⟨?_, h, ?_⟩
  · rintro ⟨name, -, -, hname⟩
    cases hname
  · simp [Json.Names, BarContext.names, holding]

theorem resolve_text_above : above.IsText holding.names "close + 2 " ∧
    ((∃ x, Expression.evaluate "close + 2 " (prices holding) = .ok x ∧ x.isFinite = true ∧
        resolve holding (some above) = .ok (some (.float x))) ∨
      ∃ f, Expression.evaluate "close + 2 " (prices holding) = .error (.expression f) ∧
        resolve holding (some above) = .ok none) ∧
    resolve { holding with entry := none } (some above) = resolve holding (some above) := by
  have hb : above.IsText holding.names "close + 2 " := isText_above .null (by simp [Json.Names])
  have hentry : ∀ n, holding.entry = some n → Succeeds n.toFloat := by
    rintro n ⟨⟩
    exact ⟨_, rfl⟩
  obtain ⟨hvalue, hother⟩ :=
    (resolve_text hb ⟨_, rfl⟩ hentry).1 (Json.isLabel_of_isTruthy_eq_false rfl)
  exact ⟨hb, hvalue, hother not_mentionsEntry_above none⟩

/-- **A number as a label** ends the lookup of a text that has a value. -/
theorem numbered_text_fails :
    { above with label := .ofInt 5 }.IsText holding.names "close + 2 " ∧
      Expression.evaluate "close + 2 " (prices holding) = .ok 13.0 ∧
      resolve holding (some above) = .ok (some (.float 13.0)) ∧
      resolve holding (some { above with label := .ofInt 5 }) =
        .error (.noAttribute "int" "lower") :=
  ⟨isText_above _ (by simp [Json.Names]), by rfl, by rfl, by rfl⟩

end Operand

end StrategyGraph
