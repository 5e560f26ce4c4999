import StrategyGraph.Proofs.Expression.Evaluate
import StrategyGraph.Proofs.Text.Blank

/-!
# What the value of a text depends on

The value of a text is a matter of its tokens, and of the values of the names among them.

* `tokenize_strip` : blanks around a text are no part of its tokens, so that the text has the value
  that it has without them (`evaluate_strip`);
* `references_iff` : a text refers to the names among its tokens;
* `evaluate_congr` : its value depends on no other names;
* `evaluate_known` : it has a value only if all of them have one.
-/

namespace StrategyGraph

namespace Expression

variable {c : Char} {cs bs : List Char} {s name : String}

theorem bounds_of_isNameChar (h : isNameChar c = true) : 48 ≤ c.toNat ∧ c.toNat ≤ 122 := by
  rw [isNameChar, Bool.or_eq_true, decide_eq_true_eq] at h
  rcases h with h | rfl
  · have hranges : (decide (65 ≤ c.val ∧ c.val ≤ 90) ||
        (decide (97 ≤ c.val) && decide (c.val ≤ 122)) ||
        (decide (48 ≤ c.val) && decide (c.val ≤ 57))) = true := h
    simp only [Bool.or_eq_true, Bool.and_eq_true, decide_eq_true_eq, UInt32.le_iff_toNat_le]
      at hranges
    change ((65 ≤ c.toNat ∧ c.toNat ≤ 90) ∨ 97 ≤ c.toNat ∧ c.toNat ≤ 122) ∨
      48 ≤ c.toNat ∧ c.toNat ≤ 57 at hranges
    omega
  · decide

theorem not_isNameChar_of_isBlank (h : Text.isBlank c = true) : isNameChar c = false := by
  rw [Bool.eq_false_iff]
  intro hname
  have hbounds := bounds_of_isNameChar hname
  have houtside := Text.outside_of_isBlank h
  omega

theorem numberLength_le (cs : List Char) : numberLength cs ≤ cs.length := by
  have hwhole : (cs.takeWhile Text.isDigit).length ≤ cs.length :=
    (List.takeWhile_prefix _).length_le
  rw [numberLength]
  split
  · next rest hrest =>
    have hlength := congrArg List.length hrest
    have hfraction : (rest.takeWhile Text.isDigit).length ≤ rest.length :=
      (List.takeWhile_prefix _).length_le
    simp only [List.length_drop, List.length_cons] at hlength
    dsimp only
    split <;> omega
  · exact hwhole

theorem numberLength_append (hbs : ∀ b ∈ bs.head?, Text.isDigit b = false ∧ b ≠ '.') :
    numberLength (cs ++ bs) = numberLength cs := by
  have hdigits : ∀ ds, (ds ++ bs).takeWhile Text.isDigit = ds.takeWhile Text.isDigit := fun _ =>
    Text.takeWhile_append_of_head fun b hb => (hbs b hb).1
  rw [numberLength, numberLength, hdigits,
    List.drop_append_of_le_length (List.takeWhile_prefix _).length_le]
  generalize (cs.takeWhile Text.isDigit).length = whole
  cases cs.drop whole with
  | nil =>
    cases bs with
    | nil => rfl
    | cons b bs => simp [(hbs b rfl).2]
  | cons d rest =>
    by_cases hpoint : d = '.'
    · subst hpoint
      simp [hdigits]
    · simp [hpoint]

theorem tokenLength_le (cs : List Char) : (tokenLength cs).2 ≤ cs.length := by
  rw [tokenLength.eq_def]
  split
  · next n hn => exact Nat.le_trans (Nat.le_of_eq hn.symm) (numberLength_le cs)
  · cases cs with
    | nil => exact Nat.le_refl 0
    | cons c rest =>
      have hname : (rest.takeWhile isNameChar).length ≤ rest.length :=
        (List.takeWhile_prefix _).length_le
      dsimp only
      split
      · simp only [List.length_cons]
        omega
      · simp

theorem tokenLength_append (hbs : ∀ b ∈ bs.head?, Text.isBlank b = true) :
    tokenLength (c :: cs ++ bs) = tokenLength (c :: cs) := by
  have hname : (cs ++ bs).takeWhile isNameChar = cs.takeWhile isNameChar :=
    Text.takeWhile_append_of_head fun b hb => not_isNameChar_of_isBlank (hbs b hb)
  have hnumber : numberLength (c :: cs ++ bs) = numberLength (c :: cs) :=
    numberLength_append fun b hb => ⟨Text.not_isDigit_of_isBlank (hbs b hb), by
      rintro rfl
      simpa using Text.outside_of_isBlank (hbs '.' hb)⟩
  rw [List.cons_append] at hnumber ⊢
  simp only [tokenLength, hnumber, hname]

theorem scan_append_of_isBlank_left (hbs : ∀ c ∈ bs, Text.isBlank c = true) :
    Token.scan 0 (bs ++ cs) = Token.scan 0 cs := by
  induction bs with
  | nil => rfl
  | cons b bs ih =>
    rw [List.forall_mem_cons] at hbs
    rw [List.cons_append, Token.scan, if_pos hbs.1]
    exact ih hbs.2

theorem scan_append_of_isBlank_right (hbs : ∀ c ∈ bs, Text.isBlank c = true) {skip : Nat}
    (hskip : skip ≤ cs.length) : Token.scan skip (cs ++ bs) = Token.scan skip cs := by
  induction cs generalizing skip with
  | nil =>
    obtain rfl : skip = 0 := Nat.le_zero.1 hskip
    have hblank : Token.scan 0 (bs ++ []) = Token.scan 0 [] := scan_append_of_isBlank_left hbs
    rwa [List.append_nil] at hblank
  | cons c cs ih =>
    cases skip with
    | succ n => exact ih (Nat.le_of_succ_le_succ hskip)
    | zero =>
      have hlength : (tokenLength (c :: cs)).2 ≤ (c :: cs).length := tokenLength_le _
      have htake : (c :: cs ++ bs).take (tokenLength (c :: cs)).2 =
          (c :: cs).take (tokenLength (c :: cs)).2 := List.take_append_of_le_length hlength
      rw [List.cons_append, Token.scan, Token.scan, ih (Nat.zero_le _), ← List.cons_append,
        tokenLength_append fun b hb => hbs b (List.mem_of_mem_head? hb)]
      dsimp only
      rw [htake, ih (Nat.sub_le_of_le_add hlength)]

/-- **Blanks around a text are no part of its tokens.** -/
theorem tokenize_strip : tokenize (Text.strip s) = tokenize s := by
  obtain ⟨before, after, hbefore, hafter, hs⟩ := Text.exists_trim s.toList
  rw [tokenize, tokenize, Text.strip, String.toList_ofList]
  conv_rhs => rw [hs]
  rw [scan_append_of_isBlank_left hbefore, scan_append_of_isBlank_right hafter (Nat.zero_le _)]

theorem references_strip : references (Text.strip s) = references s := by
  funext name
  rw [references, references, tokenize_strip]

/-- A text has the value that it has without the blanks around it. -/
theorem evaluate_strip {vars : Variables Float} :
    evaluate (Text.strip s) vars = evaluate s vars := by
  simp only [evaluate, tokenize_strip, Text.strip_strip_eq_empty_iff]

/-! ### Names -/

/-- A text refers to the names among its tokens. -/
theorem references_iff : references s name = true ↔
    ∃ tokens, tokenize s = .ok tokens ∧ ⟨.name, name.toList⟩ ∈ tokens := by
  rw [references]
  cases tokenize s with
  | error fault => simp
  | ok tokens =>
    simp only [List.any_eq_true, Bool.and_eq_true, decide_eq_true_eq, Except.ok.injEq,
      exists_eq_left']
    constructor
    · rintro ⟨⟨kind, text⟩, ht, rfl, rfl⟩
      exact ht
    · intro h
      exact ⟨_, h, rfl, rfl⟩

theorem references_of_mem {tokens : List Token} (htokens : tokenize s = .ok tokens) {t : Token}
    (ht : t ∈ tokens) (hkind : t.kind = .name) : references s (String.ofList t.text) = true := by
  obtain ⟨kind, text⟩ := t
  obtain rfl : kind = .name := hkind
  exact references_iff.2 ⟨tokens, htokens, by rwa [String.toList_ofList]⟩

section

variable {α : Type} {A : Arithmetic α} {vars vars' : Variables α} {m m' : Machine α}
  {tokens : List Token} {t : Token}

namespace Machine

theorem step_congr
    (h : t.kind = .name → vars (String.ofList t.text) = vars' (String.ofList t.text)) :
    step A vars m t = step A vars' m t := by
  obtain ⟨kind, text⟩ := t
  rw [step, step]
  split
  · cases kind with
    | number => rfl
    | operator => rfl
    | name =>
      have hname : vars (String.ofList text) = vars' (String.ofList text) := h rfl
      simp only [operand, hname]
  · rfl

/-- A name stands only where an operand starts, and there it has a value. -/
theorem step_name (h : step A vars m t = .ok m') (hkind : t.kind = .name) :
    ∃ v, vars (String.ofList t.text) = some v := by
  obtain ⟨kind, text⟩ := t
  obtain rfl : kind = .name := hkind
  rw [step] at h
  split at h
  · simp only [operand] at h
    cases hname : vars (String.ofList text) with
    | none =>
      rw [hname] at h
      cases h
    | some v => exact ⟨v, rfl⟩
  · have hsign := operator_ok (mapError_eq_ok.1 h) rfl
    simp [Token.sign] at hsign

theorem run_congr (h : ∀ t ∈ tokens, t.kind = .name →
      vars (String.ofList t.text) = vars' (String.ofList t.text)) :
    tokens.foldlM (step A vars) m = tokens.foldlM (step A vars') m := by
  induction tokens generalizing m with
  | nil => rfl
  | cons t tokens ih =>
    rw [List.forall_mem_cons] at h
    rw [List.foldlM_cons, List.foldlM_cons, step_congr h.1]
    exact bind_congr fun n => ih h.2

theorem run_name (h : tokens.foldlM (step A vars) m = .ok m') (ht : t ∈ tokens)
    (hkind : t.kind = .name) : ∃ v, vars (String.ofList t.text) = some v := by
  induction tokens generalizing m with
  | nil => cases ht
  | cons u tokens ih =>
    rw [List.foldlM_cons] at h
    obtain ⟨n, hstep, h⟩ := bind_eq_ok.1 h
    rcases List.mem_cons.1 ht with rfl | ht
    · exact step_name hstep hkind
    · exact ih h ht

end Machine

end

variable {vars vars' : Variables Float} {x : Float}

/-- **The value of a text depends on no names but those that it refers to.** -/
theorem evaluate_congr (h : ∀ name, references s name = true → vars name = vars' name) :
    evaluate s vars = evaluate s vars' := by
  rw [evaluate, evaluate]
  cases htokens : tokenize s with
  | error fault => rfl
  | ok tokens =>
    have hrun : evaluateTokens doubles vars tokens = evaluateTokens doubles vars' tokens := by
      rw [evaluateTokens, evaluateTokens, Machine.run_congr fun t ht hkind =>
        h _ (references_of_mem htokens ht hkind)]
    simp only [Except.mapError, ok_bind, hrun]

theorem evaluate_eq_ok : evaluate s vars = .ok x ↔ Text.strip s ≠ "" ∧
    ∃ tokens, tokenize s = .ok tokens ∧ evaluateTokens doubles vars tokens = .ok x ∧
      x.isFinite = true := by
  rw [evaluate]
  split
  · next hblank =>
    refine iff_of_false (fun h => ?_) fun h => h.1 hblank
    cases h
  · next hblank =>
    rw [and_iff_right hblank]
    refine bind_eq_ok.trans (exists_congr fun tokens => ?_)
    rw [mapError_eq_ok, bind_eq_ok]
    refine and_congr_right fun _ => ?_
    constructor
    · rintro ⟨v, hvalue, h⟩
      split at h
      · next hfinite =>
        cases h
        exact ⟨hvalue, hfinite⟩
      · cases h
    · rintro ⟨hvalue, hfinite⟩
      exact ⟨x, hvalue, if_pos hfinite⟩

theorem isFinite_of_evaluate (h : evaluate s vars = .ok x) : x.isFinite = true := by
  obtain ⟨-, -, -, -, hx⟩ := evaluate_eq_ok.1 h
  exact hx

/-- **All names that a text refers to have values if the text has one.** -/
theorem evaluate_known (h : evaluate s vars = .ok x) (hname : references s name = true) :
    ∃ v, vars name = some v := by
  obtain ⟨tokens, htokens, hmem⟩ := references_iff.1 hname
  obtain ⟨-, tokens', htokens', hvalue, -⟩ := evaluate_eq_ok.1 h
  obtain rfl : tokens = tokens' := Except.ok.inj (htokens.symm.trans htokens')
  obtain ⟨m, hrun, -⟩ := bind_eq_ok.1 hvalue
  simpa using Machine.run_name hrun hmem rfl

end Expression

end StrategyGraph
