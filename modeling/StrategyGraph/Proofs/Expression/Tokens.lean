import StrategyGraph.Proofs.Decimal.Literal
import StrategyGraph.Proofs.Expression.References

/-!
# Texts and their tokens

A text is cut into tokens from left to right, each as long as it can be.

* `Token.WellFormed` : numbers are mantissas of literals, names are identifiers, operators are
  single characters;
* `scan_induction` : what holds of cutting a text, one blank or one token at a time;
* `scan_ok`, `scan_error` : tokens are well-formed and nothing but blanks is left out between them;
  a text is refused for a character that starts no token;
* `scan_join` : well-formed tokens with blanks between them are cut into these tokens.
-/

namespace StrategyGraph.Expression

open Decimal (Mantissa IsNumeric)

variable {c : Char} {cs rest : List Char} {t : Token} {tokens : List Token}

/-! ### Characters of tokens -/

theorem bounds_of_isNameStart (h : isNameStart c = true) : 65 ≤ c.toNat ∧ c.toNat ≤ 122 := by
  rw [isNameStart, Bool.or_eq_true, decide_eq_true_eq] at h
  rcases h with h | rfl
  · have hranges : (decide (65 ≤ c.val ∧ c.val ≤ 90) ||
        (decide (97 ≤ c.val) && decide (c.val ≤ 122))) = true := h
    simp only [Bool.or_eq_true, Bool.and_eq_true, decide_eq_true_eq, UInt32.le_iff_toNat_le]
      at hranges
    change (65 ≤ c.toNat ∧ c.toNat ≤ 90) ∨ 97 ≤ c.toNat ∧ c.toNat ≤ 122 at hranges
    omega
  · decide

theorem not_isBlank_of_isNameChar (h : isNameChar c = true) : Text.isBlank c = false := by
  rw [Bool.eq_false_iff]
  intro hblank
  simp [not_isNameChar_of_isBlank hblank] at h

theorem isNameChar_of_isNameStart (h : isNameStart c = true) : isNameChar c = true := by
  rw [isNameStart, Bool.or_eq_true] at h
  rw [isNameChar, Bool.or_eq_true, Char.isAlphanum, Bool.or_eq_true]
  exact h.imp .inl id

theorem not_isNumeric_of_isNameStart (h : isNameStart c = true) : ¬IsNumeric c := by
  intro hnumeric
  have hbounds := hnumeric.bounds
  have hname := bounds_of_isNameStart h
  omega

theorem isOperator_iff : isOperator c = true ↔ c ∈ ['+', '-', '*', '/', '(', ')'] := by
  rw [isOperator, decide_eq_true_eq]

/-! ### The first token -/

theorem takeWhile_isDigit {ds : List Char} (hds : ∀ c ∈ ds, Text.isDigit c = true)
    (hrest : ∀ c ∈ rest.head?, Text.isDigit c = false) :
    (ds ++ rest).takeWhile Text.isDigit = ds := by
  rw [Text.takeWhile_append_of_head hrest, List.takeWhile_eq_self_iff]
  exact hds

/-- Digits and a point are a number together with the digits that follow, if there is a digit. -/
theorem numberLength_point {ds : List Char} (hds : ∀ c ∈ ds, Text.isDigit c = true) :
    numberLength (ds ++ '.' :: rest) =
      if ds = [] ∧ rest.takeWhile Text.isDigit = [] then 0
      else ds.length + 1 + (rest.takeWhile Text.isDigit).length := by
  have hpoint : ∀ c ∈ ('.' :: rest).head?, Text.isDigit c = false := by
    rintro c ⟨⟩
    decide
  rw [numberLength, takeWhile_isDigit hds hpoint, List.drop_left]
  simp

theorem numberLength_digits {ds : List Char} (hds : ∀ c ∈ ds, Text.isDigit c = true)
    (hrest : ∀ c ∈ rest.head?, ¬IsNumeric c) : numberLength (ds ++ rest) = ds.length := by
  have hdigit : ∀ c ∈ rest.head?, Text.isDigit c = false := fun c hc =>
    Bool.eq_false_iff.2 fun hdigit => hrest c hc (.inl hdigit)
  rw [numberLength, takeWhile_isDigit hds hdigit, List.drop_left]
  split
  · exact absurd (.inr rfl) (hrest '.' rfl)
  · rfl

theorem numberLength_chars (m : Mantissa) : numberLength m.chars = m.chars.length := by
  obtain ⟨whole, fraction, hdigits, hne⟩ := m
  obtain ⟨hwhole, hfraction⟩ := List.forall_mem_append.1 hdigits
  cases fraction with
  | none =>
    change numberLength (whole ++ []) = (whole ++ []).length
    rw [numberLength_digits hwhole (by simp), List.append_nil]
  | some fs =>
    have hfs : fs.takeWhile Text.isDigit = fs := List.takeWhile_eq_self_iff.2 hfraction
    change numberLength (whole ++ '.' :: fs) = (whole ++ '.' :: fs).length
    rw [numberLength_point hwhole, hfs, if_neg (by simpa using hne)]
    simp only [List.length_append, List.length_cons]
    omega

/-- A text starts with digits, if with none, and goes on with something else. -/
theorem exists_digits (cs : List Char) : ∃ ds rest, cs = ds ++ rest ∧
    (∀ c ∈ ds, Text.isDigit c = true) ∧ ∀ c ∈ rest.head?, Text.isDigit c = false := by
  refine ⟨cs.takeWhile Text.isDigit, cs.dropWhile Text.isDigit,
    List.takeWhile_append_dropWhile.symm, fun _ => List.mem_takeWhile_imp, fun c hc => ?_⟩
  have hnot := List.head?_dropWhile_not Text.isDigit cs
  rwa [Option.mem_def.1 hc] at hnot

theorem not_isNumeric_of_ne_point (hrest : ∀ c ∈ rest.head?, Text.isDigit c = false)
    (hpoint : ∀ fs, rest ≠ '.' :: fs) (hc : c ∈ rest.head?) : ¬IsNumeric c := by
  rintro (hdigit | rfl)
  · simp [hrest c hc] at hdigit
  · obtain ⟨fs, rfl⟩ := List.head?_eq_some_iff.1 hc
    exact hpoint fs rfl

theorem exists_mantissa (cs : List Char) (h : numberLength cs ≠ 0) :
    ∃ m : Mantissa, cs.take (numberLength cs) = m.chars := by
  have hdigits : ∀ {ds : List Char}, ∀ c ∈ ds.takeWhile Text.isDigit, Text.isDigit c = true :=
    fun _ => List.mem_takeWhile_imp
  obtain ⟨ds, rest, rfl, hds, hrest⟩ := exists_digits cs
  by_cases hpoint : ∃ fs, rest = '.' :: fs
  · obtain ⟨fs, rfl⟩ := hpoint
    rw [numberLength_point hds] at h ⊢
    split at h
    · exact absurd rfl h
    · next hne =>
      rw [if_neg hne]
      refine ⟨⟨ds, some (fs.takeWhile Text.isDigit),
        List.forall_mem_append.2 ⟨hds, hdigits⟩, by simpa using hne⟩, ?_⟩
      have hsplit : ds ++ '.' :: fs =
          (ds ++ '.' :: fs.takeWhile Text.isDigit) ++ fs.dropWhile Text.isDigit := by simp
      rw [hsplit, List.take_left' (by simp; omega)]
      rfl
  · have hnone : ∀ c ∈ rest.head?, ¬IsNumeric c := fun _ =>
      not_isNumeric_of_ne_point hrest fun fs hfs => hpoint ⟨fs, hfs⟩
    rw [numberLength_digits hds hnone] at h ⊢
    refine ⟨⟨ds, none, by simpa using hds, by simpa using h⟩, ?_⟩
    rw [List.take_left]
    simp [Mantissa.chars]

theorem numberLength_eq_zero (h : ∀ c ∈ cs.head?, ¬IsNumeric c) : numberLength cs = 0 :=
  numberLength_digits (List.forall_mem_nil _) h

theorem numberLength_ne_zero (h : Text.isDigit c = true) : numberLength (c :: cs) ≠ 0 := by
  have hlength : ((c :: cs).takeWhile Text.isDigit).length ≠ 0 := by simp [h]
  rw [numberLength]
  split
  · simp [hlength]
  · exact hlength

/-- Tokens as they are cut from a text. -/
inductive Token.WellFormed : Token → Prop
  | number (m : Mantissa) : WellFormed ⟨.number, m.chars⟩
  | name (c : Char) (cs : List Char) (hc : isNameStart c = true)
      (hcs : ∀ d ∈ cs, isNameChar d = true) : WellFormed ⟨.name, c :: cs⟩
  | operator (c : Char) (hc : isOperator c = true) : WellFormed ⟨.operator, [c]⟩

namespace Token.WellFormed

theorem ne_nil (h : t.WellFormed) : t.text ≠ [] := by
  cases h with
  | number m =>
    obtain ⟨c, cs, hchars, -⟩ := m.exists_chars_eq_cons
    simp [hchars]
  | name | operator => simp

theorem not_isBlank (h : t.WellFormed) (hc : c ∈ t.text) : Text.isBlank c = false := by
  cases h with
  | number m => exact (m.isNumeric_of_mem hc).not_isBlank
  | name d cs hd hcs =>
    rcases List.mem_cons.1 hc with rfl | hc
    · exact not_isBlank_of_isNameChar (isNameChar_of_isNameStart hd)
    · exact not_isBlank_of_isNameChar (hcs c hc)
  | operator d hd =>
    obtain rfl := List.mem_singleton.1 hc
    have hblank : ['+', '-', '*', '/', '(', ')'].all (fun c => !Text.isBlank c) = true := by decide
    simpa using List.all_eq_true.1 hblank c (isOperator_iff.1 hd)

theorem isOperator (h : t.WellFormed) (hkind : t.kind = .operator) (hc : c ∈ t.text) :
    isOperator c = true := by
  cases h with
  | operator d hd => rwa [List.mem_singleton.1 hc]
  | number | name => cases hkind

theorem tokenLength_text (h : t.WellFormed) : tokenLength t.text = (t.kind, t.text.length) := by
  cases h with
  | number m =>
    obtain ⟨c, cs, hchars, -⟩ := m.exists_chars_eq_cons
    have hlength : numberLength m.chars = cs.length + 1 := by
      rw [numberLength_chars, hchars, List.length_cons]
    dsimp only
    rw [tokenLength.eq_def, hlength]
    simp [hchars]
  | name c cs hc hcs =>
    have hnumber : numberLength (c :: cs) = 0 := numberLength_eq_zero (by
      rintro d ⟨⟩
      exact not_isNumeric_of_isNameStart hc)
    simp [tokenLength, hnumber, hc, List.takeWhile_eq_self_iff.2 hcs, Nat.add_comm]
  | operator c hc =>
    have hall : ['+', '-', '*', '/', '(', ')'].all (fun c => tokenLength [c] = (.operator, 1)) =
        true := by decide
    simpa using List.all_eq_true.1 hall c (isOperator_iff.1 hc)

end Token.WellFormed

/-- A character that starts no token. A point is one as well, unless a digit follows. -/
structure IsStray (c : Char) : Prop where
  blank : Text.isBlank c = false
  digit : Text.isDigit c = false
  name : isNameStart c = false
  operator : isOperator c = false

/-- What stands at the start of a text: a token, or a character that starts none. -/
theorem wellFormed_tokenLength (hc : Text.isBlank c = false) :
    Token.WellFormed ⟨(tokenLength (c :: cs)).1, (c :: cs).take (tokenLength (c :: cs)).2⟩ ∨
      tokenLength (c :: cs) = (.operator, 1) ∧ IsStray c := by
  rw [tokenLength.eq_def]
  cases hnumber : numberLength (c :: cs) with
  | succ n =>
    obtain ⟨m, hm⟩ := exists_mantissa (c :: cs) (by omega)
    rw [hnumber] at hm
    dsimp only
    rw [hm]
    exact .inl (.number m)
  | zero =>
    dsimp only
    split
    · next hname =>
      dsimp only
      rw [Nat.add_comm, List.take_succ_cons,
        ← List.prefix_iff_eq_take.1 (List.takeWhile_prefix isNameChar)]
      exact .inl (.name c _ hname fun _ => List.mem_takeWhile_imp)
    · next hname =>
      cases hoperator : isOperator c with
      | true => exact .inl (.operator c hoperator)
      | false =>
        refine .inr ⟨rfl, hc, ?_, by simpa using hname, hoperator⟩
        rw [Bool.eq_false_iff]
        intro hdigit
        exact numberLength_ne_zero hdigit hnumber

/-! ### Cutting texts -/

theorem scan_skip (n : Nat) (cs : List Char) : Token.scan n cs = Token.scan 0 (cs.drop n) := by
  induction cs generalizing n with
  | nil => cases n <;> rfl
  | cons c cs ih =>
    cases n with
    | zero => rfl
    | succ n => exact ih n

theorem scan_blank (h : Text.isBlank c = true) : Token.scan 0 (c :: cs) = Token.scan 0 cs := by
  rw [Token.scan, if_pos h]

theorem scan_stray (hlength : tokenLength (c :: cs) = (.operator, 1)) (h : IsStray c) :
    Token.scan 0 (c :: cs) = .error (.unexpectedCharacter c) := by
  rw [Token.scan, h.blank, hlength]
  simp [h.operator]

/-- The token stands before a text, and no longer one does. -/
structure Token.Stands (t : Token) (rest : List Char) : Prop where
  wellFormed : t.WellFormed
  length : tokenLength (t.text ++ rest) = (t.kind, t.text.length)

/-- Before a blank and at the end of the text, a token is as long as it can be. -/
theorem Token.WellFormed.stands (h : t.WellFormed)
    (hrest : ∀ c ∈ rest.head?, Text.isBlank c = true) : t.Stands rest := by
  refine ⟨h, ?_⟩
  obtain ⟨c, cs, hchars⟩ := List.exists_cons_of_ne_nil h.ne_nil
  rw [← h.tokenLength_text, hchars]
  exact tokenLength_append hrest

/-- A text that starts with no blank starts with a token or with a stray character. -/
theorem exists_stands (cs : List Char) (hc : Text.isBlank c = false) :
    (∃ (t : Token) (rest : List Char), c :: cs = t.text ++ rest ∧ t.Stands rest) ∨
      tokenLength (c :: cs) = (.operator, 1) ∧ IsStray c := by
  refine (wellFormed_tokenLength hc).imp_left fun hwell => ?_
  have hlength : ((c :: cs).take (tokenLength (c :: cs)).2).length = (tokenLength (c :: cs)).2 := by
    rw [List.length_take, Nat.min_eq_left (tokenLength_le _)]
  refine ⟨_, (c :: cs).drop (tokenLength (c :: cs)).2, (List.take_append_drop ..).symm, hwell, ?_⟩
  rw [List.take_append_drop, hlength]

theorem scan_token (h : t.Stands rest) :
    Token.scan 0 (t.text ++ rest) = (Token.scan 0 rest).map (t :: ·) := by
  obtain ⟨kind, text⟩ := t
  obtain ⟨hwell, hlength⟩ := h
  obtain ⟨c, cs, rfl⟩ := List.exists_cons_of_ne_nil hwell.ne_nil
  have hblank : Text.isBlank c = false := hwell.not_isBlank (by simp)
  have hoperator : ¬(kind = .operator && !isOperator c) = true := by
    simpa using hwell.isOperator (c := c)
  dsimp only at hlength
  rw [List.cons_append] at hlength ⊢
  rw [Token.scan, hblank, hlength]
  simp only [Bool.false_eq_true, if_false, if_neg hoperator, List.length_cons, Nat.add_sub_cancel]
  rw [scan_skip, List.drop_left' rfl, ← List.cons_append, List.take_left' (by simp)]

/-- **What holds of cutting a text**: it ends, at the end of the text or at a stray character, and
until then it passes over a blank or takes a token. -/
theorem scan_induction {P : List Char → Except ExpressionFault (List Token) → Prop}
    (nil : P [] (.ok []))
    (blank : ∀ c cs, Text.isBlank c = true → P cs (Token.scan 0 cs) → P (c :: cs) (Token.scan 0 cs))
    (stray : ∀ c cs, IsStray c → tokenLength (c :: cs) = (.operator, 1) →
      P (c :: cs) (.error (.unexpectedCharacter c)))
    (token : ∀ t rest, Token.Stands t rest → P rest (Token.scan 0 rest) →
      P (t.text ++ rest) ((Token.scan 0 rest).map (t :: ·)))
    (cs : List Char) : P cs (Token.scan 0 cs) := by
  induction hn : cs.length using Nat.strong_induction_on generalizing cs with
  | _ n ih =>
    subst hn
    cases cs with
    | nil => exact nil
    | cons c cs =>
      cases hblank : Text.isBlank c with
      | true =>
        rw [scan_blank hblank]
        exact blank c cs hblank (ih cs.length (by simp) cs rfl)
      | false =>
        rcases exists_stands cs hblank with hwell | ⟨hlength, hstray⟩
        · obtain ⟨t, rest, hsplit, hstands⟩ := hwell
          have hshorter : rest.length < (c :: cs).length := by
            have hpos := List.length_pos_iff.2 hstands.wellFormed.ne_nil
            rw [hsplit, List.length_append]
            omega
          rw [hsplit, scan_token hstands]
          exact token t rest hstands (ih _ hshorter _ rfl)
        · rw [scan_stray hlength hstray]
          exact stray c cs hstray hlength

/-- **A text that is cut into tokens is made of them and of blanks.** -/
theorem scan_ok (h : Token.scan 0 cs = .ok tokens) :
    (∀ t ∈ tokens, t.WellFormed) ∧
      tokens.flatMap Token.text = cs.filter fun c => !Text.isBlank c := by
  refine scan_induction (P := fun cs r => ∀ tokens, r = .ok tokens →
    (∀ t ∈ tokens, t.WellFormed) ∧
      tokens.flatMap Token.text = cs.filter fun c => !Text.isBlank c) ?_ ?_ ?_ ?_ cs tokens h
  · rintro tokens ⟨⟩
    simp
  · intro c cs hc ih tokens h
    simpa [hc] using ih tokens h
  · rintro c cs - - tokens ⟨⟩
  · intro t rest hstands ih tokens h
    obtain ⟨tokens, htokens, rfl⟩ := map_eq_ok.1 h
    obtain ⟨hwell, hchars⟩ := ih tokens htokens
    have hkept : t.text.filter (fun c => !Text.isBlank c) = t.text :=
      List.filter_eq_self.2 fun c hc => by simp [hstands.wellFormed.not_isBlank hc]
    refine ⟨List.forall_mem_cons.2 ⟨hstands.wellFormed, hwell⟩, ?_⟩
    rw [List.flatMap_cons, hchars, List.filter_append, hkept]

/-- **A text that is refused has a character that starts no token.** -/
theorem scan_error {fault : ExpressionFault} (h : Token.scan 0 cs = .error fault) :
    ∃ c ∈ cs, IsStray c ∧ fault = .unexpectedCharacter c := by
  refine scan_induction (P := fun cs r => r = .error fault →
    ∃ c ∈ cs, IsStray c ∧ fault = .unexpectedCharacter c) ?_ ?_ ?_ ?_ cs h
  · rintro ⟨⟩
  · intro c cs _ ih h
    obtain ⟨d, hd, hstray⟩ := ih h
    exact ⟨d, List.mem_cons_of_mem _ hd, hstray⟩
  · rintro c cs hstray - ⟨⟩
    exact ⟨c, List.mem_cons_self, hstray, rfl⟩
  · intro t rest _ ih h
    obtain ⟨d, hd, hstray⟩ := ih (map_eq_error.1 h)
    exact ⟨d, List.mem_append_right _ hd, hstray⟩

/-- **Tokens with blanks between them are cut into these tokens.** -/
theorem scan_join (h : ∀ t ∈ tokens, t.WellFormed) :
    Token.scan 0 ([' '].intercalate (tokens.map Token.text)) = .ok tokens := by
  induction tokens with
  | nil => rfl
  | cons t tokens ih =>
    obtain ⟨ht, htokens⟩ := List.forall_mem_cons.1 h
    cases tokens with
    | nil =>
      have hstands : t.Stands [] := ht.stands (by simp)
      have hscan : Token.scan 0 (t.text ++ []) = .ok [t] := scan_token hstands
      simpa using hscan
    | cons u tokens =>
      have hblank : Text.isBlank ' ' = true := by decide
      have hstands : t.Stands (' ' :: [' '].intercalate ((u :: tokens).map Token.text)) :=
        ht.stands (by
          rintro c ⟨⟩
          exact hblank)
      rw [List.map_cons, List.map_cons, List.intercalate_cons_cons, List.append_assoc,
        List.singleton_append, ← List.map_cons, scan_token hstands, scan_blank hblank, ih htokens]
      rfl

end StrategyGraph.Expression
