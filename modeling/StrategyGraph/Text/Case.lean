/-!
# Lower case

Names, labels and handles are compared with ASCII words whatever their case. `lower` changes
exactly the letters whose lower case is an ASCII letter: `A`–`Z` and the Kelvin sign. All other
characters stay, so a lowered text equals an ASCII word, or ends in or holds one, if and only if
its full lower case does.
-/

namespace StrategyGraph.Text

/-- The lower case of a letter whose lower case is an ASCII letter; all else stays. -/
def lowerChar (c : Char) : Char := if c = '\u212a' then 'k' else c.toLower

/-- The text with every letter lowered by `lowerChar`. -/
def lower (s : String) : String := String.ofList (s.toList.map lowerChar)

/-- The text with each occurrence of the character `old` replaced by `new`. -/
def replaceChar (s : String) (old new : Char) : String :=
  String.ofList (s.toList.map fun c => if c = old then new else c)

/-- The text without the character `c`. -/
def removeChar (s : String) (c : Char) : String :=
  String.ofList (s.toList.filter (· ≠ c))

/-- `pattern` stands somewhere in the list. -/
def hasInfix (pattern : List Char) : List Char → Bool
  | [] => pattern.isEmpty
  | c :: cs => pattern.isPrefixOf (c :: cs) || hasInfix pattern cs

/-- `pattern` stands somewhere in the text. -/
def includes (s pattern : String) : Bool := hasInfix pattern.toList s.toList

/-- The text ends in `tail`. -/
def endsIn (s tail : String) : Bool := tail.toList.isSuffixOf s.toList

end StrategyGraph.Text
