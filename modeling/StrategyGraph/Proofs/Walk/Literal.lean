import StrategyGraph.Proofs.Expression.Tokens
import StrategyGraph.Proofs.Walk.Operand

/-!
# Operands that are literals

A number that is the value of an operand is taken as it is, and a text is evaluated. A text that
writes a number has that number as its value, unless it has an exponent: the tokens of such a text
are a mantissa and a name, and no expression.

* `tokenize_literal` : the tokens of a literal start with its sign and its mantissa;
* `evaluate_of_exponent_eq_none`, `evaluate_of_exponent` : its value, if any;
* `Operand.resolve_literal` : **a literal stands for its number if it has no exponent, and for
  nothing if it has one**.
-/

namespace StrategyGraph

namespace Expression

open Decimal (Mantissa Literal Exponent Sign IsNumeric signChars)

variable {c : Char} {rest : List Char} {vars : Variables Float} {l : Literal} {x y : Float}

/-! ### The tokens of literals -/

theorem stands_sign (s : Sign) : (Token.sign s.char).Stands rest := by
  have hoperator : isOperator s.char = true := by cases s <;> decide
  have hstart : isNameStart s.char = false := by cases s <;> decide
  have hnumber : numberLength (s.char :: rest) = 0 := by
    refine numberLength_eq_zero ?_
    rintro c ⟨⟩ hnumeric
    have hbounds := hnumeric.bounds
    cases s <;> simp [Sign.char] at hbounds
  refine ⟨.operator s.char hoperator, ?_⟩
  change tokenLength (s.char :: rest) = (.operator, 1)
  simp [tokenLength, hnumber, hstart]

/-- What follows the mantissa of a literal is no part of it. -/
theorem stands_mantissa (l : Literal) : Token.Stands ⟨.number, l.mantissa.chars⟩ l.tail := by
  have hwell : Token.WellFormed ⟨.number, l.mantissa.chars⟩ := .number l.mantissa
  refine ⟨hwell, ?_⟩
  have htail : ∀ c ∈ l.tail.head?, Text.isDigit c = false ∧ c ≠ '.' := by
    intro c hc
    rcases l.head_tail hc with rfl | rfl <;> decide
  have hlength := hwell.tokenLength_text
  obtain ⟨c, cs, hchars, -⟩ := l.mantissa.exists_chars_eq_cons
  have hnumber : numberLength (c :: cs ++ l.tail) = cs.length + 1 := by
    rw [numberLength_append htail, ← hchars, numberLength_chars, hchars, List.length_cons]
  dsimp only
  rw [hchars, tokenLength.eq_def, hnumber]
  rfl

theorem stands_exponent (e : Exponent) : ∃ (t : Token) (rest : List Char),
    e.chars = t.text ++ rest ∧ t.Stands rest ∧ t.kind = .name := by
  have hmark : e.mark = 'e' ∨ e.mark = 'E' := e.mark_eq
  have hblank : Text.isBlank e.mark = false := by rcases hmark with h | h <;> rw [h] <;> decide
  have hstart : isNameStart e.mark = true := by rcases hmark with h | h <;> rw [h] <;> decide
  have hnumber : numberLength e.chars = 0 := numberLength_eq_zero (by
    rintro c ⟨⟩
    exact not_isNumeric_of_isNameStart hstart)
  have hname : (tokenLength e.chars).1 = .name := by
    rw [tokenLength.eq_def, hnumber]
    simp [Exponent.chars, hstart]
  rcases exists_stands (signChars e.sign ++ e.digits) hblank with
    ⟨t, rest, hchars, hstands⟩ | ⟨hlength, -⟩
  · refine ⟨t, rest, hchars, hstands, ?_⟩
    change e.chars = _ at hchars
    rwa [hchars, hstands.length] at hname
  · change tokenLength e.chars = _ at hlength
    rw [hlength] at hname
    cases hname

/-- The tokens that a literal has before its exponent. -/
def literalTokens (l : Literal) : List Token :=
  (l.sign.map fun s => Token.sign s.char).toList ++ [⟨.number, l.mantissa.chars⟩]

/-- **The tokens of a literal start with its sign and its mantissa.** -/
theorem tokenize_literal (l : Literal) :
    tokenize l.text = (Token.scan 0 l.tail).map (literalTokens l ++ ·) := by
  rw [tokenize, Literal.text, String.toList_ofList, Literal.magnitude, literalTokens]
  have hmantissa := scan_token (stands_mantissa l)
  cases l.sign with
  | none => exact hmantissa
  | some s =>
    refine (scan_token (stands_sign s)).trans ?_
    dsimp only at hmantissa
    rw [hmantissa]
    cases Token.scan 0 l.tail <;> rfl

/-! ### The values of literals -/

theorem strip_literal (l : Literal) : Text.strip l.text = l.text := by
  rw [Text.strip, Text.trim, Text.trimBy_eq_self fun c hc => l.not_isBlank_of_mem hc,
    String.ofList_toList]

theorem strip_literal_ne (l : Literal) : Text.strip l.text ≠ "" := by
  obtain ⟨c, cs, hmagnitude, -⟩ := l.exists_magnitude_eq_cons
  rw [strip_literal, Literal.text, hmagnitude, ← String.ofList_nil, Ne, String.ofList_inj]
  simp

/-- A literal without an exponent refers to no name. -/
theorem references_literal (h : l.exponent = none) (name : String) :
    references l.text name = false := by
  have htokens : tokenize l.text = .ok (literalTokens l ++ []) := by
    rw [tokenize_literal, Literal.tail, h]
    rfl
  rw [references, htokens, List.append_nil, literalTokens]
  cases l.sign <;> simp [Token.sign]

theorem evaluate_literal (l : Literal) : evaluate l.text vars =
    ((Token.scan 0 l.tail).mapError .expression >>= fun tokens => do
      let v ← evaluateTokens doubles vars (literalTokens l ++ tokens)
      if v.isFinite then pure v else throw (.expression .notFinite)) := by
  rw [evaluate, if_neg (strip_literal_ne l), tokenize_literal]
  cases Token.scan 0 l.tail <;> rfl

theorem run_literal (h : Decimal.readDecimal l.mantissa.chars = some y) :
    (literalTokens l).foldlM (Machine.step doubles vars) ⟨[], none⟩ =
      .ok ⟨[], some (l.signed y)⟩ := by
  have hvalue : doubles.numeral l.mantissa.chars = y := by simp [doubles, h]
  rw [← hvalue, literalTokens, Literal.signed]
  cases l.sign with
  | none => rfl
  | some s => cases s <;> rfl

/-- A literal without an exponent has its number as its value, unless that is infinite. -/
theorem evaluate_of_exponent_eq_none (h : l.exponent = none)
    (hx : Decimal.readFloat l.text = some x) : evaluate l.text vars =
      if x.isFinite then .ok x else .error (.expression .notFinite) := by
  have htail : l.tail = [] := by rw [Literal.tail, h]; rfl
  rw [l.readFloat_text, Option.map_eq_some_iff, Literal.magnitude, htail, List.append_nil] at hx
  obtain ⟨y, hy, rfl⟩ := hx
  have hvalue : evaluateTokens doubles vars (literalTokens l ++ []) = .ok (l.signed y) := by
    rw [evaluateTokens, List.append_nil, run_literal hy]
    rfl
  rw [evaluate_literal, htail]
  change (evaluateTokens doubles vars (literalTokens l ++ []) >>= _) = _
  rw [hvalue]
  rfl

/-- A literal with an exponent has no value: its mantissa is followed by a name. -/
theorem evaluate_of_exponent {e : Exponent} (h : l.exponent = some e) (vars : Variables Float) :
    ∃ f, evaluate l.text vars = .error (.expression f) := by
  have htail : l.tail = e.chars := by rw [Literal.tail, h]; rfl
  obtain ⟨y, hy⟩ := Literal.readDecimal_chars l.mantissa
  obtain ⟨t, rest, hchars, hstands, hkind⟩ := stands_exponent e
  rw [evaluate_literal, htail, hchars, scan_token hstands]
  cases Token.scan 0 rest with
  | error fault => exact ⟨fault, rfl⟩
  | ok tokens =>
    obtain ⟨kind, text⟩ := t
    obtain rfl : kind = .name := hkind
    have hvalue : evaluateTokens doubles vars (literalTokens l ++ ⟨.name, text⟩ :: tokens) =
        .error (.expression (.unexpectedToken (String.ofList text))) := by
      rw [evaluateTokens, List.foldlM_append, run_literal hy]
      rfl
    refine ⟨.unexpectedToken (String.ofList text), ?_⟩
    change (evaluateTokens doubles vars (literalTokens l ++ ⟨.name, text⟩ :: tokens) >>= _) = _
    rw [hvalue]
    rfl

end Expression

namespace Operand

open Decimal (Literal)

variable {ctx : BarContext} {b : Binding} {s : String} {l : Literal} {x : Float}

theorem ofText_literal (hx : Decimal.readFloat l.text = some x) : ofText ctx l.text =
    .ok (if x.isFinite ∧ l.exponent = none then some (.float x) else none) := by
  rw [ofText]
  cases h : l.exponent with
  | none =>
    rw [Expression.references_literal h, Expression.evaluate_of_exponent_eq_none h hx]
    cases x.isFinite <;> simp
  | some e =>
    obtain ⟨f, hf⟩ := Expression.evaluate_of_exponent h (environment ctx l.text)
    rw [hf]
    simp

/-- A number that is the value of an operand is taken as it is, unless its parameter names a
series. -/
theorem resolve_float (h : b.IsText ctx.names s) (hlabel : b.label.IsLabel) :
    resolve ctx (some { b with value := .number (.float x) }) =
      .ok (if x.isFinite then some (.float x) else none) := by
  have hkeys : ∀ key ∈ Binding.keys { b with value := .number (.float x) }, key ∈ b.keys :=
    fun key hkey => List.mem_append_left _ (by simpa [Binding.keys, Json.string?] using hkey)
  have hseries :
      seriesNamed? ctx (Binding.keys { b with value := .number (.float x) }) = .ok none :=
    seriesNamed?_of_unnamed (fun key hkey => h.not_isNested hlabel (hkeys key hkey))
      fun key hkey => h.unnamed key (hkeys key hkey)
  rw [resolve, Option.filter_some, if_pos h.bound]
  change (seriesNamed? ctx _ >>= _) = _
  rw [hseries]
  change (Except.ok (if x.isFinite then some x else none)).map (Option.map Number.float) = _
  cases x.isFinite <;> rfl

/-- **A literal stands for its number if it has no exponent, and for nothing if it has one**, while
the number itself is taken as it is. -/
theorem resolve_literal (h : b.IsText ctx.names l.text) (hlabel : b.label.IsLabel) :
    ∃ x, Decimal.readFloat l.text = some x ∧
    resolve ctx (some { b with value := .number (.float x) }) =
      .ok (if x.isFinite then some (.float x) else none) ∧
    resolve ctx (some b) =
      .ok (if x.isFinite ∧ l.exponent = none then some (.float x) else none) := by
  obtain ⟨y, hy⟩ := l.readDecimal_magnitude
  have hx : Decimal.readFloat l.text = some (l.signed y) := by rw [l.readFloat_text, hy]; rfl
  refine ⟨l.signed y, hx, resolve_float h hlabel, ?_⟩
  rw [resolve_eq_ofText h hlabel, Expression.strip_literal, ofText_literal hx]

/-- Minus two and a half thousand, with an exponent. -/
def thousands : Literal where
  sign := some .minus
  mantissa :=
    { whole := ['2'], fraction := some ['5'], isDigit := List.all_eq_true.1 rfl,
      nonempty := by decide }
  exponent := some
    { upper := true, sign := some .plus, digits := ['3'], isDigit := List.all_eq_true.1 rfl,
      nonempty := by decide }

theorem resolve_literal_thousands : thousands.text = "-2.5E+3" ∧
    (Binding.ofValue (.string "-2.5E+3")).IsText holding.names thousands.text ∧
    ∃ x, Decimal.readFloat thousands.text = some x ∧
      resolve holding (some (.ofValue (.number (.float x)))) =
        .ok (if x.isFinite then some (.float x) else none) ∧
      resolve holding (some (.ofValue (.string "-2.5E+3"))) =
        .ok (if x.isFinite ∧ thousands.exponent = none then some (.float x) else none) := by
  have hb : (Binding.ofValue (.string "-2.5E+3")).IsText holding.names thousands.text := by
    refine ⟨rfl, rfl, by decide, ?_⟩
    rintro key hkey ⟨name, hname, -, rfl⟩
    have hkeys : Binding.keys (.ofValue (.string "-2.5E+3")) =
        [.null, .null, .string "-2.5E+3"] := rfl
    rw [List.mem_singleton.1 hname, hkeys] at hkey
    simp at hkey
  exact ⟨by decide, hb, resolve_literal hb (Json.isLabel_of_isTruthy_eq_false rfl)⟩

/-- **A small number stands for itself as a number, and for nothing as a text.** -/
theorem small_literal_unresolved : ∃ x, Decimal.readFloat "1e-05" = some x ∧
    resolve holding (some (.ofValue (.number (.float x)))) = .ok (some (.float x)) ∧
    resolve holding (some (.ofValue (.string "1e-05"))) = .ok none :=
  ⟨1e-05, by decide +kernel, rfl, rfl⟩

end Operand

end StrategyGraph
