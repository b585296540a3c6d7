/-
# Words of a command line

A command line is a list of words. Some of them are options, with a value or without; the others are
arguments. A word `--` ends the options.

* `Words.scan` : the options and arguments among some words
-/
import Leftover.Text.Bytes
import Leftover.Text.Quoted
import Leftover.Text.Similar

namespace Leftover

/-- An option: its names, and whether it takes a value. -/
structure Switch where
  names : List String
  takesValue : Bool

/-- What is wrong with the words of a command line. -/
inductive Misuse : Type where
  | unknownOption (name : Text) (near : List Text)
  | valueMissing (name : Text)
  | valueUnwanted (name : Text)
  | commandMissing
  | unknownCommand (name : Text) (near : List Text)
  | argumentMissing (name : String)
  | extraArguments (words : List Text)
  | noSuchPath (argument : String) (path : Text)
  | notWhole (option : String) (value : Text)
  | tooSmall (option : String) (least : Int)
  deriving DecidableEq

/-- The question whether a name that comes near was meant. -/
def meant : List Text → String
  | [] => ""
  | [near] => " Did you mean " ++ quoted near ++ "?"
  | near => " (Did you mean one of: " ++ ", ".intercalate (near.map quoted) ++ "?)"

/-- The text on a misuse. -/
def Misuse.message : Misuse → Text
  | unknownOption name near => "No such option " ++ quoted name ++ "." ++ meant near
  | valueMissing name => "Option " ++ quoted name ++ " requires an argument."
  | valueUnwanted name => "Option " ++ quoted name ++ " does not take a value."
  | commandMissing => "Missing command."
  | unknownCommand name near => "No such command " ++ quoted name ++ "." ++ meant near
  | argumentMissing name => "Missing argument '" ++ name ++ "'."
  | extraArguments [word] => "Got unexpected extra argument (" ++ word ++ ")"
  | extraArguments words => "Got unexpected extra arguments (" ++ Text.intercalate " " words ++ ")"
  | noSuchPath argument path =>
    "Invalid value for '" ++ argument ++ "': Path " ++ quoted path.mended ++ " does not exist."
  | notWhole option value =>
    "Invalid value for '" ++ option ++ "': " ++ quoted value ++ " is not a valid integer."
  | tooSmall option least => "Invalid value for " ++ option ++ ": must be at least " ++ toString least

namespace Words

/-! ## Options -/

/-- An option as it is given: the first of its names, and its value if it takes one. -/
abbrev Given := String × Option Text

/-- The option with a name. -/
def named? (switches : List Switch) (name : Text) : Option Switch :=
  switches.find? fun s => s.names.any fun n => n = name

/-- The name of an option as a key. -/
def key (s : Switch) : String := s.names.headD ""

/-- A word before and after its first equals sign. -/
def splitValue (word : Text) : Text × Option Text :=
  match word.points.span (· ≠ .ofChar '=') with
  | (name, _ :: value) => (⟨name⟩, some ⟨value⟩)
  | (_, []) => (word, none)

/-- The options of a word of letters after a single dash. The last one may take its value from the rest of
the word or from the words after it. -/
def letters (switches : List Switch) : List CodePoint → List Text → Except Misuse (List Given × List Text)
  | [], rest => .ok ([], rest)
  | c :: more, rest =>
    let name : Text := "-" ++ ⟨[c]⟩
    match named? switches name with
    | none => .error (.unknownOption name [])
    | some s =>
      if s.takesValue then
        match more, rest with
        | [], [] => .error (.valueMissing name)
        | [], value :: rest => .ok ([(key s, some value)], rest)
        | _ :: _, rest => .ok ([(key s, some ⟨more⟩)], rest)
      else do
        let (given, rest) ← letters switches more rest
        return ((key s, none) :: given, rest)

/-- The option of a whole word that is its name, perhaps with a value after an equals sign. -/
def wholeWord (s : Switch) (name : Text) (value : Option Text) (rest : List Text) :
    Except Misuse (List Given × List Text) :=
  match s.takesValue, value, rest with
  | true, some value, rest => .ok ([(key s, some value)], rest)
  | true, none, value :: rest => .ok ([(key s, some value)], rest)
  | true, none, [] => .error (.valueMissing name)
  | false, some _, _ => .error (.valueUnwanted name)
  | false, none, rest => .ok ([(key s, none)], rest)

/-- The names of options that are words and not letters. -/
def longNames (switches : List Switch) : List Text :=
  switches.flatMap fun s => (s.names.filter (2 < ·.length)).map .ofString

/-- The option whose name is a given word. -/
def longNamed? (switches : List Switch) (name : Text) : Option Switch :=
  if (longNames switches).contains name then named? switches name else none

/-- The options of a word that begins with a dash, and the words that are left. -/
def optionsOf (switches : List Switch) (word : Text) (rest : List Text) :
    Except Misuse (List Given × List Text) :=
  let (name, value) := splitValue word
  match longNamed? switches name with
  | some s => wholeWord s name value rest
  | none =>
    if word.startsWith "--" then .error (.unknownOption name (Similar.nearest (longNames switches) name))
    else letters switches (word.points.drop 1) rest

/-- The word is an option and not an argument. -/
def isOption (word : Text) : Bool := word.startsWith "-" && 1 < word.length

/-! ## Scanning -/

/-- The options and arguments among some words. With `mixed` options may come after arguments; without it
everything from the first argument on is left as it is. No word gives more than the words there are, so
their number is enough fuel. -/
def scanFrom (mixed : Bool) (switches : List Switch) : Nat → List Text →
    Except Misuse (List Given × List Text)
  | 0, words => .ok ([], words)
  | _ + 1, [] => .ok ([], [])
  | fuel + 1, word :: rest =>
    if word = "--" then .ok ([], rest)
    else if isOption word then do
      let (given, rest) ← optionsOf switches word rest
      let (more, words) ← scanFrom mixed switches fuel rest
      return (given ++ more, words)
    else if mixed then do
      let (given, words) ← scanFrom mixed switches fuel rest
      return (given, word :: words)
    else .ok ([], word :: rest)

/-- The options and arguments among some words. -/
def scan (mixed : Bool) (switches : List Switch) (words : List Text) :
    Except Misuse (List Given × List Text) :=
  scanFrom mixed switches words.length words

/-- The value given last for an option. -/
def value? (given : List Given) (name : String) : Option Text :=
  (given.reverse.find? (·.1 = name)).bind (·.2)

/-- The option is given. -/
def isGiven (given : List Given) (name : String) : Bool := given.any (·.1 = name)

end Words

end Leftover
