import StrategyGraph.Proofs.Expression.Grammar
import StrategyGraph.Proofs.Fault

/-!
# Reading expressions

The machine that reads an expression token by token makes of the tokens what the grammar makes of
them.

* `Machine.Taken` : the tokens of a tree are taken, and what waits is applied to its value
  (`Machine.taken`);
* `Machine.Sound` : what a machine holds are values of trees that derive the tokens taken so far;
  one token keeps it so (`Machine.Sound.step`), and so does a list of tokens (`Machine.Sound.run`);
* `evaluateTokens_grammar` : tokens have a value exactly if a tree that is not too deep derives
  them and has that value, and all others are refused;
* `evaluate_error` : texts are refused with faults of expressions alone.
-/

namespace StrategyGraph.Expression

/-- Variables that can all be read. -/
def Variables.known {α : Type} (vars : String → Option α) : Variables α :=
  fun name => (vars name).map .ok

/-! ### Machines -/

namespace Machine

section

variable {α : Type}

/-- How many parentheses and signs wait for their operand. -/
def opened (pending : List (Pending α)) : Nat := pending.countP Pending.nests

/-- A term comes next, and not one more factor of it. -/
def AtTerm : List (Pending α) → Prop
  | .plus :: _ | .minus :: _ | .mul _ :: _ | .div _ :: _ => False
  | _ => True

/-- A whole expression comes next. -/
def AtExpr : List (Pending α) → Prop
  | [] | .paren :: _ => True
  | _ => False

theorem AtExpr.atTerm {pending : List (Pending α)} (h : AtExpr pending) : AtTerm pending := by
  rcases pending with - | ⟨p, rest⟩
  · trivial
  · cases p <;> trivial

theorem opened_cons_of_nests {p : Pending α} (h : p.nests = true) (pending : List (Pending α)) :
    opened (p :: pending) = opened pending + 1 := List.countP_cons_of_pos h

theorem opened_cons_of_not_nests {p : Pending α} (h : p.nests = false)
    (pending : List (Pending α)) : opened (p :: pending) = opened pending :=
  List.countP_cons_of_neg (by simp [h])

variable (A : Arithmetic α) (vars : String → Option α)

/-- Takes tokens one after the other. -/
def run (m : Machine α) (tokens : List Token) : Except Fault (Machine α) :=
  tokens.foldlM (step A (.known vars)) m

variable {A} {vars} {pending rest : List (Pending α)} {v w : α}

theorem run_cons {m m' : Machine α} {t : Token} {ts : List Token}
    (h : step A (.known vars) m t = .ok m') : run A vars m (t :: ts) = run A vars m' ts := by
  rw [run, List.foldlM_cons, h]
  rfl

theorem run_append {m m' : Machine α} {ts us : List Token} (h : run A vars m ts = .ok m') :
    run A vars m (ts ++ us) = run A vars m' us := by
  rw [run, List.foldlM_append]
  change (run A vars m ts >>= _) = _
  rw [h]
  rfl

theorem settleFactor_atTerm (h : AtTerm pending) :
    settleFactor A pending v = .ok ⟨pending, some v⟩ := by
  rcases pending with - | ⟨p, rest⟩
  · rfl
  · cases p <;> first | rfl | exact h.elim

theorem settleTerm_atExpr (h : AtExpr pending) : settleTerm A pending v = (pending, v) := by
  rcases pending with - | ⟨p, rest⟩
  · rfl
  · cases p <;> first | rfl | exact h.elim

/-! ### Derived tokens are taken -/

/-- The character opens a sign or a parenthesis. -/
inductive Opening : Char → Pending α → Prop
  | plus : Opening '+' .plus
  | minus : Opening '-' .minus
  | paren : Opening '(' .paren

theorem Opening.nests {c : Char} {p : Pending α} (h : Opening c p) : p.nests = true := by
  cases h <;> rfl

theorem step_opening {c : Char} {p : Pending α} (hc : Opening c p)
    (h : opened pending + 1 ≤ maxDepth) :
    step A (.known vars) ⟨pending, none⟩ (.sign c) = .ok ⟨p :: pending, none⟩ := by
  have hnest : nest pending p = .ok ⟨p :: pending, none⟩ := if_neg (Nat.not_le.2 h)
  cases hc <;> exact congrArg (Except.mapError Fault.expression) hnest

theorem step_close (h : settleTerm A pending v = (.paren :: rest, w)) :
    step A (.known vars) ⟨pending, some v⟩ (.sign ')') =
      (settleFactor A rest w).mapError .expression := by
  change Except.mapError Fault.expression (operator A pending v (.sign ')')) = _
  simp only [operator, Token.sign, h]
  rfl

theorem step_mul : step A (.known vars) ⟨pending, some v⟩ (.sign '*') =
    .ok ⟨.mul v :: pending, none⟩ := rfl

theorem step_div : step A (.known vars) ⟨pending, some v⟩ (.sign '/') =
    .ok ⟨.div v :: pending, none⟩ := rfl

theorem step_add (h : settleTerm A pending v = (rest, w)) :
    step A (.known vars) ⟨pending, some v⟩ (.sign '+') = .ok ⟨.add w :: rest, none⟩ := by
  change Except.mapError Fault.expression (operator A pending v (.sign '+')) = _
  simp only [operator, Token.sign, h]
  rfl

theorem step_sub (h : settleTerm A pending v = (rest, w)) :
    step A (.known vars) ⟨pending, some v⟩ (.sign '-') = .ok ⟨.sub w :: rest, none⟩ := by
  change Except.mapError Fault.expression (operator A pending v (.sign '-')) = _
  simp only [operator, Token.sign, h]
  rfl

/-- The tokens of the tree are taken, and what waits is applied to its value: what waits for a
factor at once, and what waits for a term when the next token settles it. -/
def Taken (A : Arithmetic α) (vars : String → Option α) : {r : Rule} → Tree r → Prop
  | .factor, f => ∀ pending v, f.Fits A vars (opened pending) v →
      run A vars ⟨pending, none⟩ f.tokens = (settleFactor A pending v).mapError .expression
  | .term, t => ∀ pending v, AtTerm pending → t.Fits A vars (opened pending) v →
      run A vars ⟨pending, none⟩ t.tokens = .ok ⟨pending, some v⟩
  | .expr, e => ∀ pending v, AtExpr pending → e.Fits A vars (opened pending) v →
      ∃ rest w, run A vars ⟨pending, none⟩ e.tokens = .ok ⟨rest, some w⟩ ∧
        settleTerm A rest w = (pending, v)

theorem taken {r : Rule} (t : Tree r) : Taken A vars t := by
  induction t with
  | number text =>
    rintro pending v ⟨rfl, -⟩
    exact bind_pure _
  | name text =>
    rintro pending v ⟨hv, -⟩
    refine (bind_pure _).trans ?_
    simp only [step, operand, Variables.known, hv]
    rfl
  | plus f ih =>
    intro pending v hf
    change f.Fits A vars (opened pending + 1) v at hf
    rw [Tree.tokens, run_cons (step_opening .plus hf.opened_le)]
    exact ih (.plus :: pending) v (by rwa [opened_cons_of_nests rfl])
  | minus f ih =>
    rintro pending v ⟨a, hf, rfl⟩
    rw [Tree.tokens, run_cons (step_opening .minus hf.opened_le)]
    exact ih (.minus :: pending) a (by rwa [opened_cons_of_nests rfl])
  | paren e ih =>
    intro pending v he
    change e.Fits A vars (opened pending + 1) v at he
    obtain ⟨rest, w, hrun, hsettle⟩ :=
      ih (.paren :: pending) v trivial (by rwa [opened_cons_of_nests rfl])
    rw [Tree.tokens, List.cons_append, run_cons (step_opening .paren he.opened_le),
      run_append hrun]
    exact (bind_pure _).trans (step_close hsettle)
  | single f ih =>
    intro pending v hp hf
    rw [Tree.tokens, ih pending v hf, settleFactor_atTerm hp]
    rfl
  -- A product waits for its second factor, which settles it at once.
  | mul t f iht ihf =>
    rintro pending v hp ⟨a, b, ht, hf, rfl⟩
    rw [Tree.tokens, run_append (iht pending a hp ht), run_cons step_mul,
      ihf (.mul a :: pending) b (by rwa [opened_cons_of_not_nests rfl])]
    rfl
  | div t f iht ihf =>
    rintro pending v hp ⟨a, b, ht, hf, hb, rfl⟩
    rw [Tree.tokens, run_append (iht pending a hp ht), run_cons step_div,
      ihf (.div a :: pending) b (by rwa [opened_cons_of_not_nests rfl]), settleFactor, hb]
    rfl
  | lone t ih =>
    intro pending v hp ht
    exact ⟨pending, v, ih pending v hp.atTerm ht, settleTerm_atExpr hp⟩
  -- A sum waits until a later token settles it: more factors may come first.
  | add e t ihe iht =>
    rintro pending v hp ⟨a, b, he, ht, rfl⟩
    obtain ⟨rest, w, hrun, hsettle⟩ := ihe pending a hp he
    refine ⟨.add a :: pending, b, ?_, rfl⟩
    rw [Tree.tokens, run_append hrun, run_cons (step_add hsettle)]
    exact iht (.add a :: pending) b trivial (by rwa [opened_cons_of_not_nests rfl])
  | sub e t ihe iht =>
    rintro pending v hp ⟨a, b, he, ht, rfl⟩
    obtain ⟨rest, w, hrun, hsettle⟩ := ihe pending a hp he
    refine ⟨.sub a :: pending, b, ?_, rfl⟩
    rw [Tree.tokens, run_append hrun, run_cons (step_sub hsettle)]
    exact iht (.sub a :: pending) b trivial (by rwa [opened_cons_of_not_nests rfl])

/-! ### Tokens that are taken are derived -/

section

variable (A : Arithmetic α) (vars : String → Option α)

/-- What waits after tokens that were taken. -/
inductive Waits : List (Pending α) → List Token → Prop
  | nil : Waits [] []
  | opening {c : Char} {p : Pending α} {pending : List (Pending α)} {ts : List Token}
      (hc : Opening c p) (h : Waits pending ts) (hd : opened pending + 1 ≤ maxDepth) :
      Waits (p :: pending) (ts ++ [.sign c])
  | mul {a : α} {t : Tree .term} {pending : List (Pending α)} {ts : List Token}
      (h : Waits pending ts) (hp : AtTerm pending) (ht : t.Fits A vars (opened pending) a) :
      Waits (.mul a :: pending) (ts ++ t.tokens ++ [.sign '*'])
  | div {a : α} {t : Tree .term} {pending : List (Pending α)} {ts : List Token}
      (h : Waits pending ts) (hp : AtTerm pending) (ht : t.Fits A vars (opened pending) a) :
      Waits (.div a :: pending) (ts ++ t.tokens ++ [.sign '/'])
  | add {a : α} {e : Tree .expr} {pending : List (Pending α)} {ts : List Token}
      (h : Waits pending ts) (hp : AtExpr pending) (he : e.Fits A vars (opened pending) a) :
      Waits (.add a :: pending) (ts ++ e.tokens ++ [.sign '+'])
  | sub {a : α} {e : Tree .expr} {pending : List (Pending α)} {ts : List Token}
      (h : Waits pending ts) (hp : AtExpr pending) (he : e.Fits A vars (opened pending) a) :
      Waits (.sub a :: pending) (ts ++ e.tokens ++ [.sign '-'])

/-- The machine holds what trees make of the tokens. -/
inductive Sound : Machine α → List Token → Prop
  | operand {pending : List (Pending α)} {ts : List Token} (h : Waits A vars pending ts) :
      Sound ⟨pending, none⟩ ts
  | operator {v : α} {t : Tree .term} {pending : List (Pending α)} {ts : List Token}
      (h : Waits A vars pending ts) (hp : AtTerm pending)
      (ht : t.Fits A vars (opened pending) v) : Sound ⟨pending, some v⟩ (ts ++ t.tokens)

end

variable {m m' : Machine α} {ts : List Token}

theorem Waits.opened_le (h : Waits A vars pending ts) : opened pending ≤ maxDepth := by
  induction h with
  | nil => exact Nat.zero_le _
  | opening hc _ hd _ => rwa [opened_cons_of_nests hc.nests]
  | mul _ _ _ ih | div _ _ _ ih | add _ _ _ ih | sub _ _ _ ih =>
    rwa [opened_cons_of_not_nests rfl]

theorem Waits.settleFactor (h : Waits A vars pending ts) {f : Tree .factor}
    (hf : f.Fits A vars (opened pending) v) (hm : settleFactor A pending v = .ok m) :
    Sound A vars m (ts ++ f.tokens) := by
  induction h generalizing f v with
  | nil =>
    cases hm
    exact .operator .nil trivial (t := .single f) hf
  | @opening c p pending ts hc h hd ih =>
    rw [opened_cons_of_nests hc.nests] at hf
    rw [List.append_assoc]
    cases hc with
    | plus => exact ih (f := .plus f) hf hm
    | minus => exact ih (f := .minus f) ⟨v, hf, rfl⟩ hm
    | paren =>
      cases hm
      rw [← List.append_assoc]
      exact .operator (.opening .paren h hd) trivial (t := .single f)
        (by rwa [Tree.Fits, opened_cons_of_nests rfl])
  | @mul a t pending ts h hp ht ih =>
    rw [opened_cons_of_not_nests rfl] at hf
    cases hm
    rw [List.append_assoc, List.append_assoc]
    exact .operator h hp (t := .mul t f) ⟨a, v, ht, hf, rfl⟩
  | @div a t pending ts h hp ht ih =>
    rw [opened_cons_of_not_nests rfl] at hf
    rw [Machine.settleFactor] at hm
    split at hm
    · cases hm
    · next hzero =>
      cases hm
      rw [List.append_assoc, List.append_assoc]
      exact .operator h hp (t := .div t f) ⟨a, v, ht, hf, Bool.eq_false_iff.2 hzero, rfl⟩
  | @add a e pending ts h hp he ih =>
    cases hm
    exact .operator (.add h hp he) trivial (t := .single f) hf
  | @sub a e pending ts h hp he ih =>
    cases hm
    exact .operator (.sub h hp he) trivial (t := .single f) hf

theorem Waits.settleTerm (h : Waits A vars pending ts) (hp : AtTerm pending) {t : Tree .term}
    (ht : t.Fits A vars (opened pending) v) (hm : settleTerm A pending v = (rest, w)) :
    ∃ us, ∃ e : Tree .expr, Waits A vars rest us ∧ AtExpr rest ∧ e.Fits A vars (opened rest) w ∧
      ts ++ t.tokens = us ++ e.tokens := by
  cases h with
  | nil =>
    cases hm
    exact ⟨[], .lone t, .nil, trivial, ht, rfl⟩
  | opening hc h hd =>
    cases hc with
    | plus => exact hp.elim
    | minus => exact hp.elim
    | paren =>
      cases hm
      exact ⟨_, .lone t, .opening .paren h hd, trivial, ht, rfl⟩
  | mul => exact hp.elim
  | div => exact hp.elim
  | @add a e _ us h hexpr he =>
    cases hm
    rw [opened_cons_of_not_nests rfl] at ht
    exact ⟨us, .add e t, h, hexpr, ⟨a, v, he, ht, rfl⟩, by simp [Tree.tokens]⟩
  | @sub a e _ us h hexpr he =>
    cases hm
    rw [opened_cons_of_not_nests rfl] at ht
    exact ⟨us, .sub e t, h, hexpr, ⟨a, v, he, ht, rfl⟩, by simp [Tree.tokens]⟩

theorem Waits.operand (h : Waits A vars pending ts) {t : Token}
    (hm : operand A (.known vars) pending t = .ok m) : Sound A vars m (ts ++ [t]) := by
  obtain ⟨kind, text⟩ := t
  cases kind with
  | number =>
    exact h.settleFactor (f := .number text) ⟨rfl, h.opened_le⟩ (mapError_eq_ok.1 hm)
  | name =>
    simp only [Machine.operand, Variables.known] at hm
    cases hv : vars (String.ofList text) with
    | none =>
      rw [hv] at hm
      cases hm
    | some v =>
      rw [hv] at hm
      exact h.settleFactor (f := .name text) ⟨hv, h.opened_le⟩ (mapError_eq_ok.1 hm)
  | operator =>
    have hnest : ∀ {c : Char} {p : Pending α}, Opening c p → nest pending p = .ok m →
        Sound A vars m (ts ++ [.sign c]) := by
      intro c p hc hm
      rw [nest] at hm
      split at hm
      · cases hm
      · next hd =>
        cases hm
        exact .operand (.opening hc h (Nat.not_le.1 hd))
    simp only [Machine.operand] at hm
    replace hm := mapError_eq_ok.1 hm
    split at hm
    · exact hnest .plus hm
    · exact hnest .minus hm
    · exact hnest .paren hm
    · cases hm

theorem operator_ok {t : Token} (hm : operator A pending v t = .ok m)
    (hsettle : settleTerm A pending v = (rest, w)) :
    (t = .sign '*' ∧ m = ⟨.mul v :: pending, none⟩) ∨
      (t = .sign '/' ∧ m = ⟨.div v :: pending, none⟩) ∨
      (t = .sign '+' ∧ m = ⟨.add w :: rest, none⟩) ∨
      (t = .sign '-' ∧ m = ⟨.sub w :: rest, none⟩) ∨
      ∃ outer, t = .sign ')' ∧ rest = .paren :: outer ∧ settleFactor A outer w = .ok m := by
  obtain ⟨kind, text⟩ := t
  simp only [operator, hsettle] at hm
  split at hm
  · cases hm
    exact .inl ⟨rfl, rfl⟩
  · cases hm
    exact .inr (.inl ⟨rfl, rfl⟩)
  · cases hm
    exact .inr (.inr (.inl ⟨rfl, rfl⟩))
  · cases hm
    exact .inr (.inr (.inr (.inl ⟨rfl, rfl⟩)))
  · split at hm
    · split at hm
      · next hclose =>
        obtain ⟨rfl, rfl⟩ : kind = .operator ∧ text = [')'] := by simpa using hclose
        exact .inr (.inr (.inr (.inr ⟨_, rfl, rfl, hm⟩)))
      · cases hm
    · cases hm

theorem Sound.step (h : Sound A vars m ts) {t : Token}
    (hm : step A (.known vars) m t = .ok m') : Sound A vars m' (ts ++ [t]) := by
  cases h with
  | operand h => exact h.operand hm
  | @operator v u pending ts h hp hu =>
    obtain ⟨us, e, hrest, hexpr, he, htokens⟩ := h.settleTerm hp hu rfl
    rcases operator_ok (mapError_eq_ok.1 hm) rfl with
      ⟨rfl, rfl⟩ | ⟨rfl, rfl⟩ | ⟨rfl, rfl⟩ | ⟨rfl, rfl⟩ | ⟨outer, rfl, houter, hm⟩
    · exact .operand (.mul h hp hu)
    · exact .operand (.div h hp hu)
    · rw [htokens]
      exact .operand (.add hrest hexpr he)
    · rw [htokens]
      exact .operand (.sub hrest hexpr he)
    · rw [houter] at hrest he
      rw [htokens]
      cases hrest with
      | opening hc h hd =>
        cases hc
        rw [opened_cons_of_nests rfl] at he
        have := h.settleFactor (f := .paren e) he hm
        simpa [Tree.tokens] using this

theorem Sound.run (h : Sound A vars m ts) {us : List Token} (hm : run A vars m us = .ok m') :
    Sound A vars m' (ts ++ us) := by
  induction us generalizing m ts with
  | nil =>
    obtain rfl : m = m' := Except.ok.inj hm
    rwa [List.append_nil]
  | cons t us ih =>
    rw [Machine.run, List.foldlM_cons] at hm
    obtain ⟨n, hstep, hm⟩ := bind_eq_ok.1 hm
    have := ih (h.step hstep) hm
    rwa [List.append_assoc] at this

theorem Sound.finish (h : Sound A vars m ts) (hm : m.finish A = .ok v) :
    ∃ e : Tree .expr, e.tokens = ts ∧ e.Fits A vars 0 v := by
  cases h with
  | operand h => cases hm
  | @operator w t pending ts h hp ht =>
    simp only [Machine.finish] at hm
    split at hm
    · next hsettle =>
      cases hm
      obtain ⟨us, e, hrest, -, he, htokens⟩ := h.settleTerm hp ht hsettle
      cases hrest
      exact ⟨e, htokens.symm, he⟩
    · cases hm

/-! ### Faults -/

theorem step_error {t : Token} {fault : Fault} (h : step A (.known vars) m t = .error fault) :
    ∃ f, fault = .expression f := by
  obtain ⟨pending, value⟩ := m
  cases value with
  | some v => exact exists_of_mapError h
  | none =>
    obtain ⟨kind, text⟩ := t
    cases kind with
    | number => exact exists_of_mapError h
    | operator => exact exists_of_mapError h
    | name =>
      simp only [step, operand, Variables.known] at h
      cases hv : vars (String.ofList text) with
      | none =>
        rw [hv] at h
        exact ⟨_, (Except.error.inj h).symm⟩
      | some v =>
        rw [hv] at h
        exact exists_of_mapError h

theorem run_error {fault : Fault} (h : run A vars m ts = .error fault) :
    ∃ f, fault = .expression f := by
  induction ts generalizing m with
  | nil => cases h
  | cons t ts ih =>
    rw [Machine.run, List.foldlM_cons] at h
    cases hstep : step A (.known vars) m t with
    | error e =>
      rw [hstep] at h
      cases h
      exact step_error hstep
    | ok n =>
      rw [hstep] at h
      exact ih h

end

end Machine

section

variable {α : Type} (A : Arithmetic α) (vars : String → Option α) (tokens : List Token)

/-- **The evaluator accepts its grammar.** Tokens have a value exactly if a tree derives them that
opens at most 64 parentheses and signs at the same time, whose names all have values and which
divides by nothing that is zero; it is the value of that tree. All other tokens are refused with a
fault of expressions. -/
theorem evaluateTokens_grammar :
    (∀ v, evaluateTokens A (.known vars) tokens = .ok v ↔
      ∃ t : Tree .expr, t.tokens = tokens ∧ t.depth ≤ 64 ∧ t.value A vars = some v) ∧
    ((∃ v, evaluateTokens A (.known vars) tokens = .ok v) ∨
      ∃ fault, evaluateTokens A (.known vars) tokens = .error (.expression fault)) := by
  refine ⟨fun v => ⟨fun h => ?_, ?_⟩, ?_⟩
  · obtain ⟨m, hrun, hfinish⟩ := bind_eq_ok.1 h
    have hsound : Machine.Sound A vars m tokens := (Machine.Sound.operand .nil).run hrun
    obtain ⟨t, htokens, ht⟩ := hsound.finish (mapError_eq_ok.1 hfinish)
    obtain ⟨hvalue, hdepth⟩ := (t.fits_iff A vars).1 ht
    exact ⟨t, htokens, hdepth, hvalue⟩
  · rintro ⟨t, rfl, hdepth, hvalue⟩
    have ht : t.Fits A vars 0 v := (t.fits_iff A vars).2 ⟨hvalue, hdepth⟩
    obtain ⟨rest, w, hrun, hsettle⟩ := Machine.taken t [] v trivial ht
    refine bind_eq_ok.2 ⟨⟨rest, some w⟩, hrun, mapError_eq_ok.2 ?_⟩
    simp only [Machine.finish, hsettle]
  · cases h : evaluateTokens A (.known vars) tokens with
    | ok v => exact .inl ⟨v, rfl⟩
    | error fault =>
      refine .inr ?_
      suffices ∃ f, fault = .expression f by
        obtain ⟨f, rfl⟩ := this
        exact ⟨f, rfl⟩
      change (Machine.run A vars ⟨[], none⟩ tokens >>= _) = _ at h
      cases hrun : Machine.run A vars ⟨[], none⟩ tokens with
      | error e =>
        rw [hrun] at h
        cases h
        exact Machine.run_error hrun
      | ok m =>
        rw [hrun] at h
        exact exists_of_mapError h

end

/-! ### Faults of texts -/

theorem evaluateTokens_error {α : Type} {A : Arithmetic α} {vars : String → Option α}
    {tokens : List Token} {fault : Fault}
    (h : evaluateTokens A (.known vars) tokens = .error fault) : ∃ f, fault = .expression f := by
  change (Machine.run A vars ⟨[], none⟩ tokens >>= _) = _ at h
  cases hrun : Machine.run A vars ⟨[], none⟩ tokens with
  | error e =>
    rw [hrun] at h
    cases h
    exact Machine.run_error hrun
  | ok m =>
    rw [hrun] at h
    exact exists_of_mapError h

/-- **A text that has no value is refused with a fault of expressions**, if all variables can be
read. -/
theorem evaluate_error {s : String} {vars : Variables Float} {fault : Fault}
    (hvars : ∀ name v, vars name = some v → Succeeds v) (h : evaluate s vars = .error fault) :
    ∃ f, fault = .expression f := by
  have hknown : vars = .known fun name => (vars name).bind Except.toOption := by
    funext name
    cases hname : vars name with
    | none => simp [Variables.known, hname]
    | some v =>
      obtain ⟨x, rfl⟩ := hvars name v hname
      simp [Variables.known, hname, Except.toOption]
  rw [hknown, evaluate] at h
  split at h
  · cases h
    exact ⟨_, rfl⟩
  · cases htokens : tokenize s with
    | error e =>
      rw [htokens] at h
      cases h
      exact ⟨_, rfl⟩
    | ok tokens =>
      rw [htokens] at h
      change (evaluateTokens doubles _ tokens >>= _) = _ at h
      cases hvalue : evaluateTokens doubles
          (.known fun name => (vars name).bind Except.toOption) tokens with
      | error e =>
        rw [hvalue] at h
        cases h
        exact evaluateTokens_error hvalue
      | ok v =>
        rw [hvalue] at h
        change (if v.isFinite then _ else _) = _ at h
        split at h
        · cases h
        · cases h
          exact ⟨_, rfl⟩

end StrategyGraph.Expression
