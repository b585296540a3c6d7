/-
# Files of variables

A file may set variables, one on a line as a name, an equals sign and a value. A value may stand in quotes and
then go over several lines, and it may refer to variables that are set before it. A line that makes no sense is
passed over.

* `Variables.bindings` : the names and values in a file, as they are written
* `Variables.resolve` : the variables, with references filled in
-/
import Leftover.Text.Blank

namespace Leftover
namespace Variables

/-- A name, with a value if an equals sign follows it. -/
abbrev Binding := String × Option String

/-! ## Characters -/

/-- White space, line breaks included. -/
def isWhite (c : Char) : Bool := isBlankOrSeparator (.ofChar c)

/-- The character breaks a line. -/
def isBreak (c : Char) : Bool := c = '\n' || c = '\r'

/-- White space within a line. -/
def isGap (c : Char) : Bool := isWhite c && !isBreak c

/-! ## Names -/

/-- The text after the word `export`, if the text begins with it and white space follows. -/
def afterExport (input : List Char) : List Char :=
  let rest := input.drop "export".length
  if "export".toList.isPrefixOf input && rest.head?.any isGap then rest.dropWhile isGap else input

/-- The name at the head of a text, and the rest; a remark has none. -/
def readName? : List Char → Option (Option String × List Char)
  | '#' :: rest => some (none, '#' :: rest)
  | '\'' :: rest =>
    match rest.span (· ≠ '\'') with
    | (c :: name, _ :: after) => some (some (String.ofList (c :: name)), after)
    | _ => none
  | input =>
    match input.span fun c => c ≠ '=' && c ≠ '#' && !isWhite c with
    | ([], _) => none
    | (name, after) => some (some (String.ofList name), after)

/-! ## Values -/

/-- The characters up to the closing quote, and the rest after it. A character after a backslash is passed over,
whatever it is, but no line ends there. -/
def readQuoted? (quote : Char) : List Char → Option (List Char × List Char)
  | [] => none
  | '\\' :: c :: rest =>
    if c = '\n' then none else (readQuoted? quote rest).map fun (value, after) => ('\\' :: c :: value, after)
  | c :: rest =>
    if c = quote then some ([], rest)
    else if c = '\\' then none
    else (readQuoted? quote rest).map fun (value, after) => (c :: value, after)

/-- A text with its escapes replaced; a backslash in front of anything else stays. -/
def unescape (meaning : Char → Option Char) : List Char → List Char
  | [] => []
  | [c] => [c]
  | b :: c :: rest =>
    match if b = '\\' then meaning c else none with
    | some d => d :: unescape meaning rest
    | none => b :: unescape meaning (c :: rest)

/-- The escapes between single quotes. -/
def singleEscape (c : Char) : Option Char := if c = '\\' ∨ c = '\'' then some c else none

/-- The escapes between double quotes. -/
def doubleEscape (c : Char) : Option Char :=
  if c = '\\' ∨ c = '\'' ∨ c = '"' then some c
  else if c = 'a' then some '\x07'
  else if c = 'b' then some '\x08'
  else if c = 'f' then some '\x0c'
  else if c = 'n' then some '\n'
  else if c = 'r' then some '\r'
  else if c = 't' then some '\t'
  else if c = 'v' then some '\x0b'
  else none

/-- A line up to the white space in front of a remark. -/
def withoutRemark : List Char → List Char
  | [] => []
  | c :: rest =>
    if isWhite c && (rest.dropWhile isWhite).head? = some '#' then [] else c :: withoutRemark rest

/-- The value after an equals sign, and the rest. White space in front is no part of it, but makes a remark of a
number sign. -/
def readValue? (input : List Char) : Option (String × List Char) :=
  match input.dropWhile isGap with
  | '\'' :: rest =>
    (readQuoted? '\'' rest).map fun (value, after) => (String.ofList (unescape singleEscape value), after)
  | '"' :: rest =>
    (readQuoted? '"' rest).map fun (value, after) => (String.ofList (unescape doubleEscape value), after)
  | _ =>
    let (line, after) := input.span fun c => !isBreak c
    some (String.ofList (((withoutRemark line).dropWhile isWhite).reverse.dropWhile isWhite).reverse, after)

/-! ## Lines -/

/-- The text after a line break, or at the end. -/
def afterBreak? : List Char → Option (List Char)
  | [] => some []
  | '\r' :: '\n' :: rest => some rest
  | c :: rest => if isBreak c then some rest else none

/-- The text after the end of a line, on which nothing but a remark may be left. -/
def afterLine? (input : List Char) : Option (List Char) :=
  match input.dropWhile isGap with
  | '#' :: rest => afterBreak? (rest.dropWhile fun c => !isBreak c)
  | rest => afterBreak? rest

/-- The text after the rest of a line. -/
def skipLine (input : List Char) : List Char := (input.dropWhile fun c => !isBreak c).drop 1

/-- The value after an equals sign if there is one, and the rest; else where the sense is lost. -/
def readAssigned (input : List Char) : Except (List Char) (Option String × List Char) :=
  match input with
  | '=' :: rest =>
    match readValue? rest with
    | some (value, after) => .ok (some value, after)
    | none => .error (rest.dropWhile isGap)
  | _ => .ok (none, input)

/-- The binding at the head of a text, and the rest; else where the sense is lost. -/
def readBinding (input : List Char) : Except (List Char) (Option Binding × List Char) :=
  match readName? (afterExport input) with
  | none => .error (afterExport input)
  | some (name, rest) => do
    let (value, rest) ← readAssigned (rest.dropWhile isGap)
    match afterLine? rest with
    | some after => return (name.map fun n => (n, value), after)
    | none => .error rest

/-- The bindings in a text. Each takes a character at least, so the length of the text is enough fuel. -/
def bindingsFrom : Nat → List Char → List Binding
  | 0, _ => []
  | fuel + 1, input =>
    match input.dropWhile isWhite with
    | [] => []
    | input =>
      match readBinding input with
      | .ok (binding, rest) => binding.toList ++ bindingsFrom fuel rest
      | .error lost => bindingsFrom fuel (skipLine lost)

/-- A text in which every line break is one character. -/
def unifyBreaks : List Char → List Char
  | [] => []
  | '\r' :: '\n' :: rest => '\n' :: unifyBreaks rest
  | c :: rest => (if c = '\r' then '\n' else c) :: unifyBreaks rest

/-- A text without the mark of its encoding that may stand at its head. -/
def withoutMark : List Char → List Char
  | '\ufeff' :: rest => rest
  | text => text

/-- The names and values in a file, as they are written. -/
def bindings (text : String) : List Binding := bindingsFrom text.length (unifyBreaks (withoutMark text.toList))

/-! ## References -/

/-- The name, the value to fall back on and the rest of a reference after its opening bracket. -/
def readReference? (input : List Char) : Option (String × String × List Char) :=
  match input.span fun c => c ≠ '\x7d' && c ≠ ':' with
  | (name, '\x7d' :: rest) => some (String.ofList name, "", rest)
  | (name, ':' :: '-' :: rest) =>
    match rest.span (· ≠ '\x7d') with
    | (fallback, _ :: rest) => some (String.ofList name, String.ofList fallback, rest)
    | (_, []) => none
  | _ => none

/-- The variable with a name; one without a value counts as empty. -/
def lookup? (known : List Binding) (name : String) : Option String :=
  (known.reverse.find? (·.1 = name)).map fun b => b.2.getD ""

/-- A text with its references filled in. Each takes a character at least, so the length of the text is enough
fuel. -/
def fillIn (known : List Binding) : Nat → List Char → List Char
  | 0, input => input
  | _ + 1, [] => []
  | fuel + 1, c :: rest =>
    match if c = '$' ∧ rest.head? = some '\x7b' then readReference? (rest.drop 1) else none with
    | some (name, fallback, rest) => ((lookup? known name).getD fallback).toList ++ fillIn known fuel rest
    | none => c :: fillIn known fuel rest

/-- Variables with one set: in its old place when the name occurs, at the end when not. -/
def put (b : Binding) : List Binding → List Binding
  | [] => [b]
  | a :: rest => if a.1 = b.1 then b :: rest else a :: put b rest

/-- The variables of some bindings, on top of others that references may name as well. -/
def resolve (environment : List (String × String)) (written : List Binding) : List Binding :=
  let outer : List Binding := environment.map fun (name, value) => (name, some value)
  written.foldl (fun done (name, value) =>
    put (name, value.map fun s => String.ofList (fillIn (outer ++ done) s.length s.toList)) done) []

end Variables
end Leftover
