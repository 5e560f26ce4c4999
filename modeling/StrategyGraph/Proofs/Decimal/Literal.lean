import StrategyGraph.Decimal.Reader
import StrategyGraph.Proofs.Text.Blank

/-!
# Decimal literals

How a number is written: an optional sign, digits with an optional point among or around them, and
an optional exponent. The digits may be those of any script.

* `Mantissa`, `Exponent`, `Literal` : the parts of a literal, which cannot be malformed;
* `Literal.readFloat_text` : **every literal is read as a number**: the value of its magnitude, with
  its sign.
-/

namespace StrategyGraph.Decimal

open Text (isDigit isBlank digit?)

/-- Digits with an optional point: at least one digit, before or after the point. -/
structure Mantissa where
  /-- The digits before the point, or all of them when there is no point. -/
  whole : List Char
  /-- The digits after the point, if there is one. -/
  fraction : Option (List Char)
  /-- They are digits. -/
  isDigit : ∀ c ∈ whole ++ fraction.getD [], Text.isDigit c = true
  /-- There is a digit. -/
  nonempty : whole ++ fraction.getD [] ≠ []

/-- The characters of a mantissa. -/
def Mantissa.chars (m : Mantissa) : List Char := m.whole ++ (m.fraction.map ('.' :: ·)).getD []

/-- The sign of a number or of an exponent. -/
inductive Sign where
  /-- A plus sign. -/
  | plus
  /-- A minus sign. -/
  | minus

/-- The character of a sign. -/
def Sign.char : Sign → Char
  | .plus => '+'
  | .minus => '-'

/-- The power of ten at the end of a literal. -/
structure Exponent where
  /-- The mark is `E`, and else `e`. -/
  upper : Bool
  /-- The sign, if there is one. -/
  sign : Option Sign
  /-- The digits. -/
  digits : List Char
  /-- They are digits. -/
  isDigit : ∀ c ∈ digits, Text.isDigit c = true
  /-- There is a digit. -/
  nonempty : digits ≠ []

/-- The characters of a sign, none if there is none. -/
def signChars (sign : Option Sign) : List Char := (sign.map Sign.char).toList

namespace Exponent

/-- The character that marks an exponent. -/
def mark (e : Exponent) : Char := if e.upper then 'E' else 'e'

/-- The characters of an exponent. -/
def chars (e : Exponent) : List Char := e.mark :: (signChars e.sign ++ e.digits)

end Exponent

/-- A number as it is written. -/
structure Literal where
  /-- The sign, if there is one. -/
  sign : Option Sign
  /-- The digits and the point. -/
  mantissa : Mantissa
  /-- The exponent, if there is one. -/
  exponent : Option Exponent

namespace Literal

/-- What follows the mantissa. -/
def tail (l : Literal) : List Char := (l.exponent.map Exponent.chars).getD []

/-- The literal without its sign. -/
def magnitude (l : Literal) : List Char := l.mantissa.chars ++ l.tail

/-- The number that is written, from what is written without its sign. -/
def signed (l : Literal) (x : Float) : Float := if l.sign.any (· matches .minus) then -x else x

/-- The literal as a text. -/
def text (l : Literal) : String := String.ofList (signChars l.sign ++ l.magnitude)

end Literal

/-! ### Runs of digits -/

variable {c : Char} {cs ds rest : List Char} {inside : Bool}

/-- A run of digits ends before this text: it starts with no digit, and with no underscore, which
might stand between two digits. -/
def EndsRun (rest : List Char) : Prop := ∀ c ∈ rest.head?, isDigit c = false ∧ c ≠ '_'

theorem isDigit_eq_isSome : isDigit c = (digit? c).isSome := rfl

theorem digitRun_of_endsRun (h : EndsRun rest) : digitRun inside rest = ([], rest) := by
  cases rest with
  | nil => rfl
  | cons c rest =>
    obtain ⟨hdigit, hunderscore⟩ := h c rfl
    rw [isDigit_eq_isSome, Option.isSome_eq_false_iff, Option.isNone_iff_eq_none] at hdigit
    simp [digitRun, hdigit, hunderscore]

theorem digitRun_append (hds : ∀ c ∈ ds, isDigit c = true) (hrest : EndsRun rest) :
    digitRun inside (ds ++ rest) = (ds.filterMap digit?, rest) := by
  induction ds generalizing inside with
  | nil => exact digitRun_of_endsRun hrest
  | cons c ds ih =>
    obtain ⟨hc, hds⟩ := List.forall_mem_cons.1 hds
    obtain ⟨d, hd⟩ := Option.isSome_iff_exists.1 hc
    rw [List.cons_append, digitRun, hd]
    simp [ih hds, hd]

theorem filterMap_digit?_eq_nil_iff (hds : ∀ c ∈ ds, isDigit c = true) :
    ds.filterMap digit? = [] ↔ ds = [] := by
  rw [List.filterMap_eq_nil_iff]
  constructor
  · intro h
    refine List.eq_nil_iff_forall_not_mem.2 fun c hc => ?_
    simpa [isDigit_eq_isSome, h c hc] using hds c hc
  · rintro rfl c hc
    cases hc

theorem takeSign_append {sign : Option Sign} (h : ∀ c ∈ cs.head?, c ≠ '+' ∧ c ≠ '-') :
    takeSign (signChars sign ++ cs) = (sign.any fun s => s matches .minus, cs) := by
  cases sign with
  | some s => cases s <;> rfl
  | none =>
    cases cs with
    | nil => rfl
    | cons c cs =>
      obtain ⟨hplus, hminus⟩ := h c rfl
      change takeSign (c :: cs) = (false, c :: cs)
      rw [takeSign.eq_def]
      split <;> simp_all

/-! ### Characters of literals -/

/-- The characters of which a mantissa is made. -/
def IsNumeric (c : Char) : Prop := isDigit c = true ∨ c = '.'

theorem IsNumeric.bounds (h : IsNumeric c) : 46 ≤ c.toNat ∧ c.toNat ≤ 57 ∨ 1632 ≤ c.toNat := by
  rcases h with h | rfl
  · have hbounds := Text.bounds_of_isDigit h
    omega
  · decide

theorem IsNumeric.toLower (h : IsNumeric c) : c.toLower = c := by
  rcases h with h | rfl
  · exact Text.toLower_of_isDigit h
  · rfl

theorem IsNumeric.not_isBlank (h : IsNumeric c) : isBlank c = false := by
  rcases h with h | rfl
  · rw [Bool.eq_false_iff]
    intro hblank
    simp [Text.not_isDigit_of_isBlank hblank] at h
  · decide

theorem signChars_not_isBlank {sign : Option Sign} (hc : c ∈ signChars sign) :
    isBlank c = false := by
  cases sign with
  | none => cases hc
  | some s =>
    obtain rfl : c = s.char := List.mem_singleton.1 hc
    cases s <;> decide

namespace Mantissa

variable (m : Mantissa)

theorem isNumeric_of_mem (hc : c ∈ m.chars) : IsNumeric c := by
  obtain ⟨whole, fraction, hdigits, hne⟩ := m
  rw [List.forall_mem_append] at hdigits
  rcases List.mem_append.1 hc with hc | hc
  · exact .inl (hdigits.1 c hc)
  · cases fraction with
    | none => cases hc
    | some fs =>
      rcases List.mem_cons.1 hc with rfl | hc
      · exact .inr rfl
      · exact .inl (hdigits.2 c hc)

theorem exists_chars_eq_cons : ∃ c cs, m.chars = c :: cs ∧ IsNumeric c := by
  cases hchars : m.chars with
  | nil =>
    obtain ⟨whole, fraction, hdigits, hne⟩ := m
    obtain ⟨hwhole, hfraction⟩ := List.append_eq_nil_iff.1 hchars
    cases fraction with
    | none => exact absurd (by simpa using hwhole) hne
    | some fs => cases hfraction
  | cons c cs => exact ⟨c, cs, rfl, m.isNumeric_of_mem (by simp [hchars])⟩

end Mantissa

namespace Exponent

variable (e : Exponent)

theorem mark_eq : e.mark = 'e' ∨ e.mark = 'E' := by
  rw [mark]
  cases e.upper <;> simp

theorem isNumeric_of_mem_digits (hc : c ∈ e.digits) : IsNumeric c := .inl (e.isDigit c hc)

end Exponent

namespace Literal

variable (l : Literal)

theorem exists_magnitude_eq_cons : ∃ c cs, l.magnitude = c :: cs ∧ IsNumeric c := by
  obtain ⟨c, cs, hchars, hc⟩ := l.mantissa.exists_chars_eq_cons
  exact ⟨c, cs ++ l.tail, by rw [magnitude, hchars]; rfl, hc⟩

theorem tail_not_isBlank (hc : c ∈ l.tail) : isBlank c = false := by
  rw [tail] at hc
  cases hexponent : l.exponent with
  | none => simp [hexponent] at hc
  | some e =>
    rw [hexponent] at hc
    rcases List.mem_cons.1 hc with rfl | hc
    · rcases e.mark_eq with h | h <;> rw [h] <;> decide
    · rcases List.mem_append.1 hc with hc | hc
      · exact signChars_not_isBlank hc
      · exact (e.isNumeric_of_mem_digits hc).not_isBlank

theorem not_isBlank_of_mem (hc : c ∈ l.text.toList) : isBlank c = false := by
  rw [text, String.toList_ofList] at hc
  rcases List.mem_append.1 hc with hc | hc
  · exact signChars_not_isBlank hc
  · rcases List.mem_append.1 hc with hc | hc
    · exact (l.mantissa.isNumeric_of_mem hc).not_isBlank
    · exact l.tail_not_isBlank hc

end Literal

/-! ### Reading literals -/

theorem Exponent.readExponent_chars (e : Exponent) : ∃ n, readExponent e.chars = some n := by
  have hdigits : ∀ c ∈ e.digits.head?, c ≠ '+' ∧ c ≠ '-' := by
    intro c hc
    have hbounds := (e.isNumeric_of_mem_digits (List.mem_of_mem_head? hc)).bounds
    constructor <;> (rintro rfl; simp at hbounds)
  have hrun : digitRun false e.digits = (e.digits.filterMap digit?, []) := by
    have happend : digitRun false (e.digits ++ []) = _ :=
      digitRun_append e.isDigit (by simp [EndsRun])
    rwa [List.append_nil] at happend
  rw [Exponent.chars, readExponent, if_pos e.mark_eq, takeSign_append hdigits]
  dsimp only
  rw [hrun]
  cases hvalues : e.digits.filterMap digit? with
  | nil => exact absurd ((filterMap_digit?_eq_nil_iff e.isDigit).1 hvalues) e.nonempty
  | cons d ds => exact ⟨_, rfl⟩

namespace Literal

variable (l : Literal)

/-- What follows the mantissa continues neither its digits nor its point. -/
theorem head_tail (hc : c ∈ l.tail.head?) : c = 'e' ∨ c = 'E' := by
  rw [tail] at hc
  cases hexponent : l.exponent with
  | none => simp [hexponent] at hc
  | some e =>
    rw [hexponent] at hc
    obtain rfl : e.mark = c := Option.some.inj hc
    exact e.mark_eq

theorem endsRun_tail : EndsRun l.tail := by
  intro c hc
  rcases l.head_tail hc with rfl | rfl <;> decide

theorem readExponent_tail : ∃ n, readExponent l.tail = some n := by
  rw [tail]
  cases l.exponent with
  | none => exact ⟨0, rfl⟩
  | some e => exact e.readExponent_chars

theorem readDecimal_magnitude : ∃ x, readDecimal l.magnitude = some x := by
  obtain ⟨n, hn⟩ := l.readExponent_tail
  have htail := l.endsRun_tail
  have hpoint : ∀ cs, l.tail ≠ '.' :: cs := by
    intro cs hcs
    simpa using l.head_tail (c := '.') (by simp [hcs])
  rw [magnitude, Mantissa.chars]
  obtain ⟨whole, fraction, hdigits, hne⟩ := l.mantissa
  obtain ⟨hwhole, hfraction⟩ := List.forall_mem_append.1 hdigits
  cases fraction with
  | none =>
    have hrun : digitRun false (whole ++ l.tail) = (whole.filterMap digit?, l.tail) :=
      digitRun_append hwhole htail
    have hvalues : whole.filterMap digit? ≠ [] :=
      (filterMap_digit?_eq_nil_iff hwhole).not.2 (by simpa using hne)
    simp only [Option.map_none, Option.getD_none, List.append_nil, readDecimal, hrun]
    generalize whole.filterMap digit? = values at hvalues
    rw [if_neg (by simpa using hvalues), hn]
    exact ⟨_, rfl⟩
  | some fs =>
    have hrun : digitRun false (whole ++ '.' :: (fs ++ l.tail)) =
        (whole.filterMap digit?, '.' :: (fs ++ l.tail)) :=
      digitRun_append hwhole (by simp [EndsRun]; decide)
    have hfractionRun : digitRun false (fs ++ l.tail) = (fs.filterMap digit?, l.tail) :=
      digitRun_append hfraction htail
    have hvalues : whole.filterMap digit? ++ fs.filterMap digit? ≠ [] := by
      rw [← List.filterMap_append]
      exact (filterMap_digit?_eq_nil_iff hdigits).not.2 hne
    simp only [Option.map_some, Option.getD_some, List.append_assoc, List.cons_append, readDecimal,
      hrun, hfractionRun]
    generalize whole.filterMap digit? = values, fs.filterMap digit? = values' at hvalues
    rw [if_neg (by simpa using hvalues), hn]
    exact ⟨_, rfl⟩

theorem readDecimal_chars (m : Mantissa) : ∃ x, readDecimal m.chars = some x := by
  have hmagnitude : magnitude ⟨none, m, none⟩ = m.chars := List.append_nil _
  exact hmagnitude ▸ readDecimal_magnitude ⟨none, m, none⟩

theorem numeral_text : numeral l.text = signChars l.sign ++ l.magnitude := by
  rw [numeral, Text.trimBy_eq_self, text, String.toList_ofList]
  intro c hc
  simp [Text.isNumeralBlank, l.not_isBlank_of_mem hc]

/-- **Every literal is read as a number.** -/
theorem readFloat_text : readFloat l.text = (readDecimal l.magnitude).map l.signed := by
  obtain ⟨c, cs, hmagnitude, hc⟩ := l.exists_magnitude_eq_cons
  have hbounds := hc.bounds
  have hsign : ∀ d ∈ l.magnitude.head?, d ≠ '+' ∧ d ≠ '-' := by
    rw [hmagnitude]
    rintro d ⟨⟩
    constructor <;> (rintro rfl; simp at hbounds)
  -- The literal is none of the words that are read as numbers, which start with letters.
  have hword : ∀ d ds, d = 'i' ∨ d = 'n' →
      String.ofList (l.magnitude.map Char.toLower) ≠ String.ofList (d :: ds) := by
    intro d ds hd hword
    rw [String.ofList_inj, hmagnitude, List.map_cons, hc.toLower] at hword
    obtain rfl := (List.cons.inj hword).1
    rcases hd with rfl | rfl <;> simp at hbounds
  rw [readFloat, numeral_text, takeSign_append hsign]
  dsimp only
  congr 1
  split
  · next h => exact absurd h (hword 'i' ['n', 'f'] (.inl rfl))
  · next h => exact absurd h (hword 'i' ['n', 'f', 'i', 'n', 'i', 't', 'y'] (.inl rfl))
  · next h => exact absurd h (hword 'n' ['a', 'n'] (.inr rfl))
  · rfl

end Literal

end StrategyGraph.Decimal
