import StrategyGraph.Proofs.Expression.Tokens

/-!
# Tokens as matches of a pattern

The tokens of a text can also be found by matching one pattern over and over: blanks, and then a
number, a name or any character but a line break, the first of these that matches. Repetitions take
as many characters as they can, and give some of them back where the rest of the pattern does not
match otherwise. Where the pattern matches nothing the search would stop, and a blank that is
matched as a character would be dropped.

* `Pattern.rests` : all ways to match, in the order in which they are tried;
* `Pattern.cut` : the search, with a parameter for what comes of stopping;
* `Pattern.cut_eq_scan` : **in a text that ends in no blank the search never stops**, whatever would
  come of it, and it finds the tokens that are cut from the text;
* `tokenize_lossless` : **tokens are a text without its blanks.**
-/

namespace StrategyGraph.Expression

open Decimal (IsNumeric)

/-- A pattern for the start of a text. -/
inductive Pattern where
  /-- One character of a class. -/
  | one (p : Char → Bool)
  /-- Any number of characters of a class. -/
  | many (p : Char → Bool)
  /-- One character of a class or nothing. -/
  | optional (p : Char → Bool)
  /-- One pattern after the other. -/
  | seq (a b : Pattern)
  /-- One pattern or the other. -/
  | either (a b : Pattern)

namespace Pattern

/-- What a repetition leaves of a text: as little as possible first, and the whole text last. -/
def restsOfMany (p : Char → Bool) : List Char → List (List Char)
  | [] => [[]]
  | c :: cs => if p c then restsOfMany p cs ++ [c :: cs] else [c :: cs]

/-- What matches leave of a text, in the order in which they are tried: the longer repetition before
the shorter one, and the first pattern before the other one. -/
def rests : Pattern → List Char → List (List Char)
  | one _, [] => []
  | one p, c :: cs => if p c then [cs] else []
  | many p, cs => restsOfMany p cs
  | optional _, [] => [[]]
  | optional p, c :: cs => if p c then [cs, c :: cs] else [c :: cs]
  | seq a b, cs => (rests a cs).flatMap (rests b)
  | either a b, cs => rests a cs ++ rests b cs

/-- Digits, a point and digits, of which the point and those after it may be missing; or a point and
digits. -/
def number : Pattern :=
  either
    (seq (one Text.isDigit)
      (seq (many Text.isDigit) (seq (optional (· = '.')) (many Text.isDigit))))
    (seq (one (· = '.')) (seq (one Text.isDigit) (many Text.isDigit)))

/-- A name. -/
def name : Pattern := seq (one isNameStart) (many isNameChar)

/-- Any character but a line break. -/
def other : Pattern := one (· ≠ '\n')

/-- What may follow the blanks, and the class of token that it is; an operator is one of the other
characters. -/
def tokens : List (Option Kind × Pattern) :=
  [(some .number, number), (some .name, name), (none, other)]

/-- A match of a token. -/
structure Match where
  /-- The class of the token; none for a character that may be an operator. -/
  kind : Option Kind
  /-- The characters of the token. -/
  text : List Char
  /-- What is left of the text. -/
  rest : List Char

/-- The first match at the start of a text. -/
def first? (cs : List Char) : Option Match :=
  tokens.findSome? fun (kind, p) =>
    (p.rests cs).head?.map fun rest => ⟨kind, cs.take (cs.length - rest.length), rest⟩

/-- The first match behind blanks. -/
def next? (cs : List Char) : Option Match := ((many Text.isBlank).rests cs).findSome? first?

/-- The token that is matched. A blank that is matched as a character is none, and what is no
operator either is refused. -/
def Match.token? (m : Match) : Except ExpressionFault (Option Token) :=
  match m.kind, m.text with
  | some kind, text => .ok (some ⟨kind, text⟩)
  | none, [] => .ok none
  | none, c :: cs =>
    if Text.isBlank c then .ok none
    else if isOperator c then .ok (some ⟨.operator, c :: cs⟩)
    else .error (.unexpectedCharacter c)

/-- Searches a text for tokens. Where nothing is matched, `stop` is what the search comes to. -/
def cut (stop : List Char → Except ExpressionFault (List Token)) (cs : List Char) :
    Except ExpressionFault (List Token) :=
  if cs = [] then .ok []
  else
    match next? cs with
    | none => stop cs
    | some m =>
      if m.rest.length < cs.length then
        match m.token? with
        | .error fault => .error fault
        | .ok none => cut stop m.rest
        | .ok (some t) => (cut stop m.rest).map (t :: ·)
      else stop cs
termination_by cs.length

variable {c : Char} {cs rest : List Char} {p : Char → Bool} {a b : Pattern}

/-! ### The longest match -/

theorem head?_many (p : Char → Bool) (cs : List Char) :
    ((many p).rests cs).head? = some (cs.dropWhile p) := by
  change (restsOfMany p cs).head? = _
  induction cs with
  | nil => rfl
  | cons c cs ih =>
    rw [restsOfMany]
    cases hp : p c with
    | true =>
      rw [if_pos rfl, List.head?_append, ih, List.dropWhile_cons_of_pos hp]
      rfl
    | false =>
      rw [if_neg (by simp), List.dropWhile_cons_of_neg (by simp [hp])]
      rfl

/-- A pattern that matches at the start of every text. -/
def IsTotal (a : Pattern) : Prop := ∀ cs, a.rests cs ≠ []

theorem isTotal_many : (many p).IsTotal := by
  intro cs hcs
  have hhead := head?_many p cs
  simp [hcs] at hhead

theorem isTotal_optional : (optional p).IsTotal := by
  intro cs
  cases cs with
  | nil => simp [rests]
  | cons c cs => rw [rests]; split <;> simp

/-- Where a pattern always matches, it is matched behind the first match before it. -/
theorem head?_seq (h : b.IsTotal) :
    ((seq a b).rests cs).head? = (a.rests cs).head?.bind fun rest => (b.rests rest).head? := by
  rw [rests]
  cases a.rests cs with
  | nil => rfl
  | cons rest more =>
    rw [List.flatMap_cons, List.head?_append_of_ne_nil _ (h rest)]
    rfl

theorem IsTotal.seq (ha : a.IsTotal) (hb : b.IsTotal) : (seq a b).IsTotal := by
  intro cs hcs
  have hhead : ((Pattern.seq a b).rests cs).head? = _ := head?_seq hb
  rw [hcs] at hhead
  obtain ⟨rest, more, hrests⟩ := List.exists_cons_of_ne_nil (ha cs)
  rw [hrests] at hhead
  exact hb rest (List.head?_eq_none_iff.1 hhead.symm)

theorem rests_one_seq : (seq (one p) b).rests (c :: cs) = if p c then b.rests cs else [] := by
  rw [rests, rests]
  split <;> simp

theorem head?_many_seq (h : b.IsTotal) :
    ((seq (many p) b).rests cs).head? = (b.rests (cs.dropWhile p)).head? := by
  rw [head?_seq h, head?_many]
  rfl

theorem head?_optional_seq (h : b.IsTotal) : ((seq (optional p) b).rests cs).head? =
    (b.rests (if cs.head?.any p then cs.tail else cs)).head? := by
  rw [head?_seq h]
  cases cs with
  | nil => rfl
  | cons c cs =>
    cases hp : p c with
    | true => simp [rests, hp]
    | false => simp [rests, hp]

/-! ### Numbers -/

theorem drop_length_takeWhile : cs.drop (cs.takeWhile p).length = cs.dropWhile p := by
  calc cs.drop (cs.takeWhile p).length
      = (cs.takeWhile p ++ cs.dropWhile p).drop (cs.takeWhile p).length := by
        rw [List.takeWhile_append_dropWhile]
    _ = cs.dropWhile p := List.drop_left

theorem dropWhile_isDigit {ds : List Char} (hds : ∀ c ∈ ds, Text.isDigit c = true)
    (hrest : ∀ c ∈ rest.head?, Text.isDigit c = false) :
    (ds ++ rest).dropWhile Text.isDigit = rest := by
  rw [← drop_length_takeWhile, takeWhile_isDigit hds hrest, List.drop_left]

theorem head?_number_digit {d : Char} {ds : List Char} (hd : Text.isDigit d = true)
    (hds : ∀ c ∈ ds, Text.isDigit c = true) (hrest : ∀ c ∈ rest.head?, Text.isDigit c = false) :
    (number.rests (d :: (ds ++ rest))).head? =
      some ((if rest.head?.any (· = '.') then rest.tail else rest).dropWhile Text.isDigit) := by
  have hoptional : (seq (optional (· = '.')) (many Text.isDigit)).IsTotal :=
    isTotal_optional.seq isTotal_many
  rw [number, rests, rests_one_seq, if_pos hd,
    List.head?_append_of_ne_nil _ (isTotal_many.seq hoptional _), head?_many_seq hoptional,
    dropWhile_isDigit hds hrest, head?_optional_seq isTotal_many, head?_many]

theorem head?_number_point : (number.rests ('.' :: cs)).head? =
    if cs.takeWhile Text.isDigit = [] then none else some (cs.dropWhile Text.isDigit) := by
  have hpoint : Text.isDigit '.' = false := by decide
  rw [number, rests, rests_one_seq, rests_one_seq, if_neg (by simp [hpoint]),
    if_pos (decide_eq_true rfl), List.nil_append]
  cases cs with
  | nil => rfl
  | cons c cs =>
    rw [rests_one_seq]
    cases hc : Text.isDigit c with
    | true =>
      rw [if_pos rfl, head?_many, if_neg (by simp [hc]), List.dropWhile_cons_of_pos hc]
    | false => rw [if_neg (by simp), if_pos (by simp [hc])]; rfl

theorem rests_number_of_not_isNumeric (h : ∀ c ∈ cs.head?, ¬IsNumeric c) :
    number.rests cs = [] := by
  cases cs with
  | nil => rfl
  | cons c cs =>
    have hc := h c rfl
    rw [IsNumeric, not_or, Bool.not_eq_true] at hc
    rw [number, rests, rests_one_seq, rests_one_seq, if_neg (by simp [hc.1]),
      if_neg (by simpa using hc.2)]
    rfl

theorem head?_number : (number.rests cs).head? =
    if numberLength cs = 0 then none else some (cs.drop (numberLength cs)) := by
  obtain ⟨ds, rest, rfl, hds, hrest⟩ := exists_digits cs
  by_cases hpoint : ∃ fs, rest = '.' :: fs
  · obtain ⟨fs, rfl⟩ := hpoint
    have hdrop : ∀ ds : List Char, (ds ++ '.' :: fs).drop
        (ds.length + 1 + (fs.takeWhile Text.isDigit).length) = fs.dropWhile Text.isDigit := by
      intro ds
      rw [← List.drop_drop, List.drop_length_add_append, List.drop_one, List.tail_cons,
        drop_length_takeWhile]
    rw [numberLength_point hds]
    cases ds with
    | nil =>
      rw [List.nil_append, head?_number_point]
      by_cases hfs : fs.takeWhile Text.isDigit = []
      · simp [hfs]
      · have hlength : (if [] = ([] : List Char) ∧ fs.takeWhile Text.isDigit = [] then 0
            else ([] : List Char).length + 1 + (fs.takeWhile Text.isDigit).length) =
              ([] : List Char).length + 1 + (fs.takeWhile Text.isDigit).length :=
          if_neg fun h => hfs h.2
        rw [hlength, if_neg hfs, if_neg (by omega)]
        exact congrArg some (hdrop []).symm
    | cons d ds =>
      obtain ⟨hd, hds⟩ := List.forall_mem_cons.1 hds
      rw [if_neg (by simp), if_neg (by simp)]
      exact (head?_number_digit hd hds hrest).trans (congrArg some (hdrop (d :: ds)).symm)
  · have hnone : ∀ c ∈ rest.head?, ¬IsNumeric c := fun _ =>
      not_isNumeric_of_ne_point hrest fun fs hfs => hpoint ⟨fs, hfs⟩
    rw [numberLength_digits hds hnone, List.drop_left]
    cases ds with
    | nil =>
      rw [List.nil_append, rests_number_of_not_isNumeric hnone]
      rfl
    | cons d ds =>
      obtain ⟨hd, hds⟩ := List.forall_mem_cons.1 hds
      have hany : rest.head?.any (· = '.') = false := by
        cases rest with
        | nil => rfl
        | cons c rest => simpa using fun h => hnone c rfl (.inr h)
      have hkept : rest.dropWhile Text.isDigit = rest :=
        dropWhile_isDigit (List.forall_mem_nil _) hrest
      rw [if_neg (by simp)]
      refine (head?_number_digit hd hds hrest).trans ?_
      rw [hany, if_neg (by simp), hkept]

/-! ### The first match -/

theorem head?_name : (name.rests (c :: cs)).head? =
    if isNameStart c then some ((c :: cs).drop (1 + (cs.takeWhile isNameChar).length))
    else none := by
  rw [name, rests_one_seq]
  cases isNameStart c with
  | true => rw [if_pos rfl, if_pos rfl, head?_many, Nat.add_comm, List.drop_succ_cons,
      drop_length_takeWhile]
  | false => rfl

theorem head?_other (h : Text.isBlank c = false) :
    (other.rests (c :: cs)).head? = some ((c :: cs).drop 1) := by
  have hbreak : Text.isBlank '\n' = true := by decide
  have hc : c ≠ '\n' := by
    rintro rfl
    simp [hbreak] at h
  simp [other, rests, hc]

/-- The class of a matched token: an operator is matched as any other character. -/
def kindOf : Kind → Option Kind
  | .operator => none
  | kind => some kind

theorem take_matched {n : Nat} (h : n ≤ cs.length) :
    cs.take (cs.length - (cs.drop n).length) = cs.take n := by
  rw [List.length_drop, Nat.sub_sub_self h]

/-- **The first match is the first token.** -/
theorem first?_eq (h : Text.isBlank c = false) : first? (c :: cs) =
    some ⟨kindOf (tokenLength (c :: cs)).1, (c :: cs).take (tokenLength (c :: cs)).2,
      (c :: cs).drop (tokenLength (c :: cs)).2⟩ := by
  have hle := tokenLength_le (c :: cs)
  rw [← take_matched hle]
  revert hle
  rw [first?, tokens, tokenLength.eq_def]
  simp only [List.findSome?_cons, head?_number]
  cases numberLength (c :: cs) with
  | succ n => simp [kindOf]
  | zero =>
    simp only [head?_name, head?_other h]
    cases isNameStart c <;> simp [kindOf]

theorem next?_eq (hc : Text.isBlank c = false) (h : cs.dropWhile Text.isBlank = c :: rest) :
    next? cs = first? (c :: rest) := by
  obtain ⟨more, hmore⟩ : ∃ more, (many Text.isBlank).rests cs = (c :: rest) :: more := by
    rw [← h]
    exact List.head?_eq_some_iff.1 (head?_many _ cs)
  rw [next?, hmore, List.findSome?_cons, first?_eq hc]

/-! ### The search -/

/-- The text ends in no blank. -/
def EndsPlain (cs : List Char) : Prop := ∀ c ∈ cs.getLast?, Text.isBlank c = false

theorem EndsPlain.of_append {before : List Char} (h : EndsPlain (before ++ cs)) : EndsPlain cs := by
  intro c hc
  refine h c ?_
  rw [List.getLast?_append, Option.mem_def.1 hc]
  rfl

theorem endsPlain_trim (cs : List Char) : EndsPlain (Text.trim cs) := by
  intro c hc
  rw [Text.trim, Text.trimBy, List.getLast?_reverse] at hc
  have hnot := List.head?_dropWhile_not Text.isBlank (cs.dropWhile Text.isBlank).reverse
  rwa [Option.mem_def.1 hc] at hnot

/-- Behind its blanks, a text that ends in no blank goes on. -/
theorem EndsPlain.exists_cons (h : EndsPlain cs) (hne : cs ≠ []) :
    ∃ c rest, cs.dropWhile Text.isBlank = c :: rest ∧ Text.isBlank c = false := by
  cases hdrop : cs.dropWhile Text.isBlank with
  | nil =>
    have hblank := h _ (List.getLast?_eq_some_getLast hne)
    rw [List.dropWhile_eq_nil_iff.1 hdrop _ (List.getLast_mem hne)] at hblank
    cases hblank
  | cons c rest =>
    have hnot := List.head?_dropWhile_not Text.isBlank cs
    rw [hdrop] at hnot
    exact ⟨c, rest, rfl, hnot⟩

variable {stop : List Char → Except ExpressionFault (List Token)} {t : Token}

theorem length_lt_of_dropWhile {before : List Char} (hne : before ≠ [])
    (hdrop : cs.dropWhile Text.isBlank = before ++ rest) : rest.length < cs.length := by
  have hle := (List.dropWhile_sublist Text.isBlank (l := cs)).length_le
  have hpos := List.length_pos_iff.2 hne
  rw [hdrop, List.length_append] at hle
  omega

theorem cut_token (hdrop : cs.dropWhile Text.isBlank = t.text ++ rest) (h : t.Stands rest) :
    cut stop cs = (cut stop rest).map (t :: ·) := by
  have hlt := length_lt_of_dropWhile h.wellFormed.ne_nil hdrop
  have hne : cs ≠ [] := List.ne_nil_of_length_pos (Nat.zero_lt_of_lt hlt)
  obtain ⟨c, text, htext⟩ := List.exists_cons_of_ne_nil h.wellFormed.ne_nil
  have hc : Text.isBlank c = false := h.wellFormed.not_isBlank (by simp [htext])
  have hcons : t.text ++ rest = c :: (text ++ rest) := by rw [htext, List.cons_append]
  have hnext : next? cs = some ⟨kindOf t.kind, t.text, rest⟩ := by
    rw [next?_eq hc (hdrop.trans hcons), first?_eq hc, ← hcons, h.length, List.take_left,
      List.drop_left]
  have htoken : Match.token? ⟨kindOf t.kind, t.text, rest⟩ = .ok (some t) := by
    obtain ⟨hwell, -⟩ := h
    cases hwell with
    | number m => rfl
    | name d ds hd hds => rfl
    | operator d hd =>
      obtain rfl : d = c := (List.cons.inj htext).1
      simp [Match.token?, kindOf, hc, hd]
  rw [cut, if_neg hne, hnext]
  dsimp only
  rw [if_pos hlt, htoken]

/-- A character that starts no token is refused, even behind blanks. -/
theorem cut_stray (hdrop : cs.dropWhile Text.isBlank = c :: rest)
    (hlength : tokenLength (c :: rest) = (.operator, 1)) (h : IsStray c) :
    cut stop cs = .error (.unexpectedCharacter c) := by
  have hlt := length_lt_of_dropWhile (List.cons_ne_nil c []) hdrop
  have hne : cs ≠ [] := List.ne_nil_of_length_pos (Nat.zero_lt_of_lt hlt)
  have hnext : next? cs = some ⟨none, [c], rest⟩ := by
    rw [next?_eq h.blank hdrop, first?_eq h.blank, hlength]
    rfl
  have htoken : Match.token? ⟨none, [c], rest⟩ = .error (.unexpectedCharacter c) := by
    simp [Match.token?, h.blank, h.operator]
  rw [cut, if_neg hne, hnext]
  dsimp only
  rw [if_pos hlt, htoken]

/-- **A text that ends in no blank is searched to its end, and the tokens that are found are those
that are cut from it.** -/
theorem cut_eq_scan (h : EndsPlain cs) : cut stop cs = Token.scan 0 cs := by
  induction hn : cs.length using Nat.strong_induction_on generalizing cs with
  | _ n ih =>
    subst hn
    by_cases hne : cs = []
    · subst hne
      rw [cut, if_pos rfl]
      rfl
    · obtain ⟨c, rest, hdrop, hc⟩ := h.exists_cons hne
      have hsplit : cs = cs.takeWhile Text.isBlank ++ c :: rest := by
        rw [← hdrop, List.takeWhile_append_dropWhile]
      have hscan : Token.scan 0 cs = Token.scan 0 (c :: rest) := by
        conv_lhs => rw [hsplit]
        exact scan_append_of_isBlank_left fun _ => List.mem_takeWhile_imp
      rw [hscan]
      rcases exists_stands rest hc with ⟨t, rest', htext, hstands⟩ | ⟨hlength, hstray⟩
      · rw [htext] at hdrop hsplit ⊢
        have hplain : EndsPlain rest' := by
          have hends : EndsPlain ((cs.takeWhile Text.isBlank ++ t.text) ++ rest') := by
            rwa [List.append_assoc, ← hsplit]
          exact hends.of_append
        have hlt := length_lt_of_dropWhile hstands.wellFormed.ne_nil hdrop
        rw [cut_token hdrop hstands, scan_token hstands, ih _ hlt hplain rfl]
      · rw [cut_stray hdrop hlength hstray, scan_stray hlength hstray]

end Pattern

variable {t : Token} {tokens : List Token}

theorem Token.WellFormed.readFloat (h : t.WellFormed) (hkind : t.kind = .number) :
    ∃ x, Decimal.readFloat (String.ofList t.text) = some x := by
  cases h with
  | number m =>
    let l : Decimal.Literal := ⟨none, m, none⟩
    obtain ⟨x, hx⟩ := l.readDecimal_magnitude
    have htext : String.ofList m.chars = l.text :=
      congrArg String.ofList (List.append_nil m.chars).symm
    rw [htext, l.readFloat_text, hx]
    exact ⟨_, rfl⟩
  | name | operator => cases hkind

theorem tokenize_join (h : ∀ t ∈ tokens, t.WellFormed) :
    tokenize (" ".intercalate (tokens.map fun t => String.ofList t.text)) = .ok tokens := by
  have hmap : (tokens.map fun t => String.ofList t.text).map String.toList =
      tokens.map Token.text := by
    simp
  rw [tokenize, String.toList_intercalate, hmap]
  exact scan_join h

/-- **Nothing of a text is dropped when it is cut into tokens.** The search for matches finds its
tokens, whatever would come of stopping. If there are none, then the text is refused for one of its
characters, which starts no token. Else the tokens are the text without its blanks, those that are
numbers have values, and with blanks between them they are cut into the same tokens. -/
theorem tokenize_lossless (s : String) :
    (∀ stop, Pattern.cut stop (Text.trim s.toList) = tokenize s) ∧
      ((∃ c ∈ s.toList, IsStray c ∧ tokenize s = .error (.unexpectedCharacter c)) ∨
        ∃ tokens, tokenize s = .ok tokens ∧
          tokens.flatMap Token.text = s.toList.filter (fun c => !Text.isBlank c) ∧
          (∀ t ∈ tokens, t.kind = .number →
            ∃ x, Decimal.readFloat (String.ofList t.text) = some x) ∧
          tokenize (" ".intercalate (tokens.map fun t => String.ofList t.text)) = .ok tokens) := by
  refine ⟨fun stop => ?_, ?_⟩
  · rw [Pattern.cut_eq_scan (Pattern.endsPlain_trim _), ← tokenize_strip, tokenize, Text.strip,
      String.toList_ofList]
  · cases htokens : tokenize s with
    | error fault =>
      obtain ⟨c, hc, hstray, rfl⟩ := scan_error htokens
      exact .inl ⟨c, hc, hstray, rfl⟩
    | ok tokens =>
      obtain ⟨hwell, hchars⟩ := scan_ok htokens
      exact .inr ⟨tokens, rfl, hchars, fun t ht hkind => (hwell t ht).readFloat hkind,
        tokenize_join hwell⟩

end StrategyGraph.Expression
