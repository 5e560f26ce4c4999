import StrategyGraph.Expression.Evaluate

/-!
# The grammar of expressions

Derivations in the grammar

    expr   := term (('+' | '-') term)*
    term   := factor (('*' | '/') factor)*
    factor := ('+' | '-') factor | NUMBER | NAME | '(' expr ')'

as trees. A repetition is read to the left, so that all four operators associate to the left.

* `Tree.tokens` are the tokens that a tree derives;
* `Tree.depth` is how many parentheses and signs are open at the same time;
* `Tree.value` is the value of a tree, if all its names have values and it divides by nothing that
  is zero;
* `Tree.Fits` is both in one: the value of a tree at a place where some parentheses and signs are
  open already (`Tree.fits_iff`).
-/

namespace StrategyGraph.Expression

/-- The rules of the grammar. -/
inductive Rule where
  /-- What operators and signs apply to. -/
  | factor
  /-- A product. -/
  | term
  /-- A sum. -/
  | expr

/-- The token of an operator. -/
def Token.sign (c : Char) : Token := ⟨.operator, [c]⟩

/-- Derivations from a rule. -/
inductive Tree : Rule → Type where
  | number (text : List Char) : Tree .factor
  | name (text : List Char) : Tree .factor
  | plus (f : Tree .factor) : Tree .factor
  | minus (f : Tree .factor) : Tree .factor
  | paren (e : Tree .expr) : Tree .factor
  | single (f : Tree .factor) : Tree .term
  | mul (t : Tree .term) (f : Tree .factor) : Tree .term
  | div (t : Tree .term) (f : Tree .factor) : Tree .term
  | lone (t : Tree .term) : Tree .expr
  | add (e : Tree .expr) (t : Tree .term) : Tree .expr
  | sub (e : Tree .expr) (t : Tree .term) : Tree .expr

namespace Tree

/-- The tokens that a tree derives. -/
def tokens {r : Rule} : Tree r → List Token
  | number text => [⟨.number, text⟩]
  | name text => [⟨.name, text⟩]
  | plus f => .sign '+' :: f.tokens
  | minus f => .sign '-' :: f.tokens
  | paren e => .sign '(' :: e.tokens ++ [.sign ')']
  | single f => f.tokens
  | mul t f => t.tokens ++ .sign '*' :: f.tokens
  | div t f => t.tokens ++ .sign '/' :: f.tokens
  | lone t => t.tokens
  | add e t => e.tokens ++ .sign '+' :: t.tokens
  | sub e t => e.tokens ++ .sign '-' :: t.tokens

/-- How many parentheses and signs are open at the same time. -/
def depth {r : Rule} : Tree r → Nat
  | number _ | name _ => 0
  | plus f | minus f => f.depth + 1
  | paren e => e.depth + 1
  | single f => f.depth
  | mul t f | div t f => max t.depth f.depth
  | lone t => t.depth
  | add e t | sub e t => max e.depth t.depth

section

variable {α : Type} (A : Arithmetic α) (vars : String → Option α)

/-- The value of a tree; none when a name has no value or a divisor is zero. -/
def value {r : Rule} : Tree r → Option α
  | number text => some (A.numeral text)
  | name text => vars (String.ofList text)
  | plus f => f.value
  | minus f => f.value.map A.neg
  | paren e => e.value
  | single f => f.value
  | mul t f => t.value.bind fun a => f.value.map (A.mul a)
  | div t f => t.value.bind fun a => f.value.bind fun b =>
      if A.isZero b then none else some (A.div a b)
  | lone t => t.value
  | add e t => e.value.bind fun a => t.value.map (A.add a)
  | sub e t => e.value.bind fun a => t.value.map (A.sub a)

/-- The tree has the value and may stand where `opened` parentheses and signs are open. -/
def Fits {r : Rule} : Tree r → Nat → α → Prop
  | number text, opened, v => A.numeral text = v ∧ opened ≤ maxDepth
  | name text, opened, v => vars (String.ofList text) = some v ∧ opened ≤ maxDepth
  | plus f, opened, v => f.Fits (opened + 1) v
  | minus f, opened, v => ∃ a, f.Fits (opened + 1) a ∧ A.neg a = v
  | paren e, opened, v => e.Fits (opened + 1) v
  | single f, opened, v => f.Fits opened v
  | mul t f, opened, v => ∃ a b, t.Fits opened a ∧ f.Fits opened b ∧ A.mul a b = v
  | div t f, opened, v =>
    ∃ a b, t.Fits opened a ∧ f.Fits opened b ∧ A.isZero b = false ∧ A.div a b = v
  | lone t, opened, v => t.Fits opened v
  | add e t, opened, v => ∃ a b, e.Fits opened a ∧ t.Fits opened b ∧ A.add a b = v
  | sub e t, opened, v => ∃ a b, e.Fits opened a ∧ t.Fits opened b ∧ A.sub a b = v

theorem fits_iff {r : Rule} (t : Tree r) {opened : Nat} {v : α} :
    t.Fits A vars opened v ↔ t.value A vars = some v ∧ t.depth + opened ≤ maxDepth := by
  induction t generalizing opened v with
  | number text => simp [Fits, value, depth]
  | name text => simp [Fits, value, depth]
  | plus f ih => simp only [Fits, value, depth, ih, Nat.add_right_comm, Nat.add_assoc]
  | minus f ih =>
    simp only [Fits, value, depth, ih, Option.map_eq_some_iff]
    grind
  | paren e ih => simp only [Fits, value, depth, ih, Nat.add_right_comm, Nat.add_assoc]
  | single f ih => exact ih
  | mul t f iht ihf =>
    simp only [Fits, value, depth, iht, ihf, Option.map_eq_some_iff, Option.bind_eq_some_iff]
    grind
  | div t f iht ihf =>
    simp only [Fits, value, depth, iht, ihf, Option.bind_eq_some_iff]
    grind
  | lone t ih => exact ih
  | add e t ihe iht =>
    simp only [Fits, value, depth, ihe, iht, Option.map_eq_some_iff, Option.bind_eq_some_iff]
    grind
  | sub e t ihe iht =>
    simp only [Fits, value, depth, ihe, iht, Option.map_eq_some_iff, Option.bind_eq_some_iff]
    grind

theorem Fits.opened_le {A : Arithmetic α} {vars : String → Option α} {r : Rule} {t : Tree r}
    {opened : Nat} {v : α} (h : t.Fits A vars opened v) : opened ≤ maxDepth :=
  Nat.le_trans (Nat.le_add_left _ _) ((fits_iff A vars t).1 h).2

end

end Tree

end StrategyGraph.Expression
