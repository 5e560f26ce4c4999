import StrategyGraph.Settings

/-!
# Arguments

The options of the command line. An option may be shortened as long as no other one begins like it;
its value follows it, or stands after an equals sign. Two hyphens after an equals sign are no value:
the option counts as given, and what needs its value fails. Options of one letter take no values and
may be written together, with or without an equals sign after the first one.

* `classify` tells options and values apart;
* `consume` takes the arguments one after the other;
* `Arguments.read` reads all of them.
-/

namespace StrategyGraph.CommandLine

/-- An option. -/
inductive Flag where
  /-- Asks for help. -/
  | help
  /-- The file of the graph. -/
  | graph
  /-- The file of the prices. -/
  | prices
  /-- The number of synthetic bars. -/
  | synthetic
  /-- The seed of synthetic prices. -/
  | seed
  /-- The resolution of synthetic prices. -/
  | resolution
  /-- The fee. -/
  | fee
  /-- The capital. -/
  | capital
  /-- Prints the result as JSON. -/
  | json
  /-- Shows the log. -/
  | verbose
  deriving DecidableEq

/-- How options are written. -/
def spellings : List (String × Flag) :=
  [("-h", .help), ("--help", .help), ("--graph", .graph), ("--prices", .prices),
   ("--synthetic", .synthetic), ("--seed", .seed), ("--resolution", .resolution), ("--fee", .fee),
   ("--capital", .capital), ("--json", .json), ("-v", .verbose), ("--verbose", .verbose)]

/-- How an option is written first. -/
def Flag.spelling (flag : Flag) : String :=
  ((spellings.find? fun s => s.2 = flag).map Prod.fst).getD ""

/-- A value belongs to the option. -/
def Flag.takesValue : Flag → Bool
  | help | json | verbose => false
  | _ => true

/-- Why arguments are refused. -/
inductive UsageError where
  /-- A shortened option could be several ones. -/
  | ambiguous (argument : String)
  /-- An option that takes no value has one. -/
  | unusedValue (spelling value : String)
  /-- An option lacks its value. -/
  | missingValue (spelling : String)
  /-- Two options exclude each other. -/
  | conflict (spelling : String)
  /-- The value of an option cannot be read. -/
  | invalidValue (spelling value : String)
  /-- There is no graph. -/
  | noGraph
  /-- Some arguments belong to no option. -/
  | unrecognized (arguments : List String)

/-- The wording of a refusal. -/
def UsageError.message : UsageError → String
  | ambiguous argument => "ambiguous option: " ++ argument
  | unusedValue spelling value => "argument " ++ spelling ++ ": ignored explicit argument " ++ value
  | missingValue spelling => "argument " ++ spelling ++ ": expected one argument"
  | conflict spelling => "argument " ++ spelling ++ ": not allowed with another argument"
  | invalidValue spelling value => "argument " ++ spelling ++ ": invalid value: " ++ value
  | noGraph => "the following arguments are required: --graph"
  | unrecognized arguments => "unrecognized arguments: " ++ " ".intercalate arguments

/-- Why the arguments do not lead to a run. -/
inductive Stop where
  /-- Help is asked for. -/
  | help
  /-- The arguments are refused. -/
  | usage (error : UsageError)

/-! ### Telling options and values apart -/

/-- What an argument is. -/
inductive Word where
  /-- A value. -/
  | plain
  /-- The two hyphens after which all arguments are values. -/
  | separator
  /-- It looks like an option and is none. -/
  | unknown
  /-- An option, with the value after the equals sign. -/
  | option (flag : Flag) (spelling : String) (value : Option String)
  /-- An option of one letter, with the characters written after it. -/
  | letter (flag : Flag) (rest : List Char)

/-- The text begins with some characters. -/
def startsWith (start s : String) : Bool := start.toList.isPrefixOf s.toList

/-- The argument is cut at its first equals sign. -/
def cutValue (arg : String) : String × Option String :=
  let cs := arg.toList
  match cs.dropWhile (· ≠ '=') with
  | [] => (arg, none)
  | _ :: value => (String.ofList (cs.takeWhile (· ≠ '=')), some (String.ofList value))

/-- The options that begin like an argument with two hyphens. -/
def longMatches (arg : String) : List Word :=
  let (start, value) := cutValue arg
  (spellings.filter fun s => startsWith start s.1).map fun s => .option s.2 s.1 value

/-- The option is written as one letter. -/
def isLetter (spelling : String) : Bool := spelling.length = 2

/-- An option as it is written, with what stands after an equals sign. After an option of one letter
that is more options. -/
def optionWord (flag : Flag) (spelling : String) (value : Option String) : Word :=
  match value with
  | some letters =>
    if isLetter spelling && letters ≠ "" then .letter flag letters.toList
    else .option flag spelling value
  | none => .option flag spelling none

/-- The option of one letter that an argument begins with. -/
def shortMatches (arg : String) : List Word :=
  let letter := String.ofList (arg.toList.take 2)
  (spellings.filter fun s => s.1 = letter).map fun s => .letter s.2 (arg.toList.drop 2)

/-- Nothing is left of a number but a line end. -/
def isNumberEnd (cs : List Char) : Bool := cs = [] || cs = ['\n']

/-- The characters after a hyphen are a number in positional notation. -/
def isNegativeNumber (arg : String) : Bool :=
  match arg.toList with
  | '-' :: c :: cs =>
    match (c :: cs).dropWhile Text.isDigit with
    | '.' :: d :: fraction => Text.isDigit d && isNumberEnd (fraction.dropWhile Text.isDigit)
    | rest => Text.isDigit c && isNumberEnd rest
  | _ => false

/-- What an argument before two hyphens is. -/
def classify (arg : String) : Except UsageError Word :=
  if arg = "-" || !startsWith "-" arg then .ok .plain
  else
    let (start, value) := cutValue arg
    match spellings.lookup arg, spellings.lookup start with
    | some flag, _ => .ok (.option flag arg none)
    | none, some flag => .ok (optionWord flag start value)
    | none, none =>
      match if startsWith "--" arg then longMatches arg else shortMatches arg with
      | [word] => .ok word
      | _ :: _ => .error (.ambiguous arg)
      | [] => .ok (if isNegativeNumber arg || arg.toList.contains ' ' then .plain else .unknown)

/-- What each argument is. -/
def classifyAll : List String → Except UsageError (List (String × Word))
  | [] => .ok []
  | "--" :: args => .ok (("--", .separator) :: args.map fun arg => (arg, .plain))
  | arg :: args => do
    let word ← classify arg
    pure ((arg, word) :: (← classifyAll args))

/-! ### Taking the arguments -/

/-- How an option with a value was given. -/
inductive Chosen (α : Type) where
  /-- It was not given. -/
  | unset
  /-- It was given without a value. -/
  | blank
  /-- It was given with a value. -/
  | value (a : α)

namespace Chosen

variable {α : Type}

/-- The option was given. -/
def isSet : Chosen α → Bool
  | unset => false
  | _ => true

/-- The value, if there is one. -/
def toOption : Chosen α → Option α
  | value a => some a
  | _ => none

/-- Changes the value, if there is one. -/
def map {β : Type} (f : α → β) : Chosen α → Chosen β
  | unset => unset
  | blank => blank
  | value a => value (f a)

/-- The value of an option, or what stands for it when it was not given. -/
def orDefault (c : Chosen α) (default : α) : Option α :=
  match c with
  | unset => some default
  | c => c.toOption

end Chosen

/-- What the arguments so far say. -/
structure Given where
  /-- The file of the graph. -/
  graph : Chosen String := .unset
  /-- The file of the prices. -/
  prices : Chosen String := .unset
  /-- The number of synthetic bars. -/
  synthetic : Chosen Int := .unset
  /-- The seed. -/
  seed : Chosen Int := .unset
  /-- The resolution. -/
  resolution : Chosen String := .unset
  /-- The fee. -/
  fee : Chosen Float := .unset
  /-- The capital. -/
  capital : Chosen Float := .unset
  /-- Print the result as JSON. -/
  json : Bool := false
  /-- Show the log. -/
  verbose : Bool := false
  /-- Arguments that belong to no option. -/
  extras : List String := []

namespace Given

/-- What stands after an equals sign in the place of a value that is left out. -/
def noValue : String := "--"

/-- Reads the value of an option. -/
def readValue {α : Type} (read : String → Option α) (spelling text : String) :
    Except UsageError (Chosen α) :=
  if text = noValue then .ok .blank
  else
    match read text with
    | some a => .ok (.value a)
    | none => .error (.invalidValue spelling text)

/-- A text as an integer. -/
def readInt (text : String) : Option Int :=
  match Decimal.readInt text with
  | .value n => some n
  | _ => none

/-- The names of the resolutions. -/
def resolutions : List String := ["1d", "1h", "1m"]

/-- A text as the name of a resolution. -/
def readResolution (text : String) : Option String :=
  if resolutions.contains text then some text else none

/-- Takes an option with its value. -/
def set (g : Given) (flag : Flag) (spelling text : String) : Except UsageError Given :=
  match flag with
  | .graph => do pure { g with graph := ← readValue some spelling text }
  | .prices => do
    let prices ← readValue some spelling text
    if g.synthetic.isSet then throw (.conflict spelling)
    pure { g with prices }
  | .synthetic => do
    let synthetic ← readValue readInt spelling text
    if g.prices.isSet then throw (.conflict spelling)
    pure { g with synthetic }
  | .seed => do pure { g with seed := ← readValue readInt spelling text }
  | .resolution => do pure { g with resolution := ← readValue readResolution spelling text }
  | .fee => do pure { g with fee := ← readValue Decimal.readFloat spelling text }
  | .capital => do pure { g with capital := ← readValue Decimal.readFloat spelling text }
  | .help | .json | .verbose => .error (.unusedValue spelling text)

/-- Takes an option without a value. -/
def switch (g : Given) (flag : Flag) : Except Stop Given :=
  match flag with
  | .help => .error .help
  | .json => .ok { g with json := true }
  | .verbose => .ok { g with verbose := true }
  | _ => .ok g

end Given

/-- The options of one letter that are written together, the first one and those after it. -/
def cluster (flag : Flag) : List Char → Except UsageError (List Flag)
  | [] => .ok [flag]
  | c :: rest =>
    match spellings.lookup (String.ofList ['-', c]) with
    | none => .error (.unusedValue flag.spelling (String.ofList (c :: rest)))
    | some next => (cluster next rest).map (flag :: ·)

/-- Takes the arguments one after the other. -/
def consume (g : Given) : List (String × Word) → Except Stop Given
  | [] => .ok g
  | (arg, .plain) :: rest | (arg, .separator) :: rest | (arg, .unknown) :: rest =>
    consume { g with extras := g.extras ++ [arg] } rest
  | (_, .letter flag letters) :: rest => do
    let flags ← (cluster flag letters).mapError .usage
    consume (← flags.foldlM Given.switch g) rest
  | (_, .option flag spelling (some value)) :: rest => do
    consume (← (g.set flag spelling value).mapError .usage) rest
  | (_, .option flag spelling none) :: rest =>
    if flag.takesValue then
      match rest with
      | (value, .plain) :: rest => do
        consume (← (g.set flag spelling value).mapError .usage) rest
      | _ => .error (.usage (.missingValue spelling))
    else do consume (← g.switch flag) rest

/-- What a run is asked to do. -/
structure Arguments where
  /-- The file of the graph; none when it is not named. -/
  graph : Option String
  /-- The file of the prices; synthetic ones are made when there is none. -/
  prices : Option String
  /-- The number of synthetic bars. -/
  points : Int
  /-- The seed of synthetic prices. -/
  seed : Chosen Int
  /-- The resolution of synthetic prices; none when it is not named. -/
  resolution : Option String
  /-- The fee in percent; none when it is not named. -/
  feePercent : Option Number
  /-- The capital at the start; none when it is not named. -/
  initialCapital : Option Number
  /-- Print the result as JSON. -/
  json : Bool
  /-- Show the log. -/
  verbose : Bool

namespace Arguments

/-- The number of synthetic bars of a run that names none. -/
def defaultPoints : Int := 180

/-- The resolution of a run that chooses none. -/
def defaultResolution : String := "1d"

/-- An amount as it was chosen, or the default one. -/
def amount (c : Chosen Float) (default : Number) : Option Number :=
  (c.map Number.float).orDefault default

/-- Reads all arguments. -/
def read (settings : Settings) (args : List String) : Except Stop Arguments := do
  let words ← (classifyAll args).mapError .usage
  let g ← consume {} words
  if !g.graph.isSet then throw (.usage .noGraph)
  if !g.extras.isEmpty then throw (.usage (.unrecognized g.extras))
  pure
    { graph := g.graph.toOption
      prices := g.prices.toOption.filter (· ≠ "")
      points := (g.synthetic.toOption.filter (· ≠ 0)).getD defaultPoints
      seed := g.seed
      resolution := g.resolution.orDefault defaultResolution
      feePercent := amount g.fee settings.feePercent
      initialCapital := amount g.capital settings.initialCapital
      json := g.json
      verbose := g.verbose }

/-- The files that a run reads. -/
def files (a : Arguments) : List String := a.graph.toList ++ a.prices.toList

end Arguments

end StrategyGraph.CommandLine
