import ScriptDelta.Path

/-! # The command line

A command line is read from left to right. A flag and an option with its value attached take effect
at once; an option whose values follow as words of their own takes effect when the next known option
begins or the words end. So a word that is not understood is reported before what is wrong with the
option that was still open.
-/

namespace ScriptDelta

/-- What a command line asks for. -/
structure Arguments where
  oldDir : Path := ⟨"mv"⟩
  newDir : Path := ⟨"mz"⟩
  outputDir : Path := ⟨"diff_reports"⟩
  /-- The pairs to compare in place of the default ones. -/
  pairs : List String := []
  /-- Patterns of keys to leave out. -/
  ignore : List String := []
  /-- The number of entries listed in each section of a brief. -/
  maxListed : Nat := 20000
  bodyDiff : Bool := false
  /-- Nothing is written. -/
  dryRun : Bool := false
deriving DecidableEq

namespace CommandLine

/-- Why a command line yields no arguments. -/
inductive Refusal where
  /-- A word that is no option, or follows none that would take it. -/
  | unknownArgument
  /-- An option without a value, or with an empty path. -/
  | invalidValue
  /-- A number that cannot be read. -/
  | valueValidation
  /-- A value attached to a flag. -/
  | tooManyValues
  /-- A second use of an option that may be used once. -/
  | argumentConflict
  /-- The user asked for help. -/
  | displayHelp
  /-- The user asked for the version. -/
  | displayVersion
deriving DecidableEq

/-- The options that a command line may hold. -/
inductive Name where
  | oldDir
  | newDir
  | outputDir
  | pairs
  | ignore
  | maxListed
  | bodyDiff
  | dryRun
  | help
  | version
deriving DecidableEq

namespace Name

/-- The option with a long name, written after two hyphens. -/
def ofLong? : String → Option Name
  | "old" | "mv" => some oldDir
  | "new" | "mz" => some newDir
  | "out" => some outputDir
  | "pair" => some pairs
  | "ignore" => some ignore
  | "max-listed" => some maxListed
  | "body-diff" => some bodyDiff
  | "dry-run" => some dryRun
  | "help" => some help
  | "version" => some version
  | _ => none

/-- The option with a short name, written after one hyphen. -/
def ofShort? : Char → Option Name
  | 'p' => some pairs
  | 'i' => some ignore
  | 'h' => some help
  | 'V' => some version
  | _ => none

/-- The option takes no value. -/
def isFlag (name : Name) : Bool :=
  name = bodyDiff || name = dryRun || name = help || name = version

/-- The option may be used more than once. -/
def isRepeatable (name : Name) : Bool :=
  name = pairs || name = ignore

/-- The option takes another value after those given. -/
def takesMore (name : Name) (values : List String) : Bool :=
  name = ignore || values.isEmpty

end Name

/-- A word of the command line by its form. -/
inductive Word where
  /-- Two hyphens alone. -/
  | separator
  /-- A long option, with its attached value. -/
  | long (name : String) (value : Option String)
  /-- Short options, the last perhaps with its attached value. -/
  | short (text : List Char)
  /-- Any other word. -/
  | plain (text : String)
deriving DecidableEq

/-- The form of a word. -/
def Word.ofString (text : String) : Word :=
  match text.toList with
  | ['-', '-'] => .separator
  | '-' :: '-' :: rest =>
    let name := String.ofList (rest.takeWhile (· != '='))
    match rest.dropWhile (· != '=') with
    | [] => .long name none
    | _ :: value => .long name (some (String.ofList value))
  | '-' :: c :: rest => .short (c :: rest)
  | _ => .plain text

/-- A command line read so far. -/
structure Reader where
  arguments : Arguments := {}
  /-- The options that have taken effect. -/
  used : List Name := []
  /-- The option that is still open, with its values so far. -/
  pending : Option (Name × List String) := none
  /-- Two hyphens were read, after which no word is an option. -/
  separated : Bool := false

/-- An unsigned number of 64 bits in decimal digits, perhaps after a plus sign. -/
def number? (text : String) : Option Nat :=
  let digits :=
    match text.toList with
    | '+' :: digits => digits
    | digits => digits
  if digits.isEmpty || !digits.all Char.isDigit then none
  else
    let value := digits.foldl (fun value c => 10 * value + (c.toNat - '0'.toNat)) 0
    if value < UInt64.size then some value else none

/-- A path, which must not be empty. -/
def path (text : String) : Except Refusal Path :=
  if text.isEmpty then .error .invalidValue else .ok ⟨text⟩

/-- The parts of a text between its commas. -/
def split (text : String) : List String :=
  (text.toList.splitOnP (· == ',')).map String.ofList

/-- The arguments after an option with its values. -/
def assign (arguments : Arguments) (name : Name) (values : List String) :
    Except Refusal Arguments :=
  match name, values with
  | .bodyDiff, _ => .ok { arguments with bodyDiff := true }
  | .dryRun, _ => .ok { arguments with dryRun := true }
  | .help, _ => .error .displayHelp
  | .version, _ => .error .displayVersion
  | .ignore, values => .ok { arguments with ignore := arguments.ignore ++ values.flatMap split }
  | .pairs, values => .ok { arguments with pairs := arguments.pairs ++ values }
  | .oldDir, value :: _ => do return { arguments with oldDir := ← path value }
  | .newDir, value :: _ => do return { arguments with newDir := ← path value }
  | .outputDir, value :: _ => do return { arguments with outputDir := ← path value }
  | .maxListed, value :: _ =>
    match number? value with
    | some maxListed => .ok { arguments with maxListed }
    | none => .error .valueValidation
  | _, [] => .ok arguments

namespace Reader

/-- An option takes effect: a missing value is refused first, a second use next, and a value that
cannot be read last. -/
def apply (reader : Reader) (name : Name) (values : List String) : Except Refusal Reader := do
  if !name.isFlag && values.isEmpty then throw .invalidValue
  if !name.isRepeatable && reader.used.contains name then throw .argumentConflict
  return { reader with
    arguments := ← assign reader.arguments name values
    used := name :: reader.used }

/-- The option that is still open takes effect. -/
def settle (reader : Reader) : Except Refusal Reader :=
  match reader.pending with
  | some (name, values) => { reader with pending := none }.apply name values
  | none => .ok reader

/-- Reads an option, with its value if one is attached. -/
def option (reader : Reader) (name : Name) (attached : Option String) : Except Refusal Reader := do
  if name.isFlag && attached.isSome then throw .tooManyValues
  let reader ← reader.settle
  match attached with
  | some value => reader.apply name [value]
  | none =>
    if name.isFlag then reader.apply name []
    else return { reader with pending := some (name, []) }

/-- Reads short options written together. What follows one that takes a value is its value, where
an equals sign may stand between them. -/
def shorts (reader : Reader) : List Char → Except Refusal Reader
  | [] => .ok reader
  | c :: rest =>
    match Name.ofShort? c with
    | none => .error .unknownArgument
    | some name =>
      if name.isFlag then do shorts (← reader.option name none) rest
      else
        match rest with
        | [] => reader.option name none
        | '=' :: value => reader.option name (some (String.ofList value))
        | value => reader.option name (some (String.ofList value))

/-- Reads a word that is no option: a value of the option that is still open. -/
def value (reader : Reader) (text : String) : Except Refusal Reader :=
  match reader.pending with
  | some (name, values) =>
    if name.takesMore values then
      .ok { reader with pending := some (name, values ++ [text]) }
    else .error .unknownArgument
  | none => .error .unknownArgument

/-- Reads a word. -/
def word (reader : Reader) (text : String) : Except Refusal Reader :=
  if reader.separated then .error .unknownArgument
  else
    match Word.ofString text with
    | .separator => .ok { reader with separated := true }
    | .long name attached =>
      match Name.ofLong? name with
      | some name => reader.option name attached
      | none => .error .unknownArgument
    | .short text => reader.shorts text
    | .plain text => reader.value text

end Reader

end CommandLine

/-- The arguments on a command line, the name of the program left out. -/
def Arguments.parse (words : List String) : Except CommandLine.Refusal Arguments := do
  let reader ← words.foldlM CommandLine.Reader.word {}
  return (← reader.settle).arguments

end ScriptDelta
