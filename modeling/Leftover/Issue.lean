/-
# Issues of a document

What is wrong with one place of a document that does not describe what it should.

* `Complaint` : the kinds of defects, with their texts
* `Issue` : a defect at a place
* `issuesText` : the report on a document, one line per issue
-/
import Leftover.Text

namespace Leftover

/-! ## Defects -/

/-- A defect of one value. -/
inductive Complaint : Type where
  | fieldRequired
  | wantsInstance (model : String)
  | wantsRecordOf (model : String)
  | wantsDictionary
  | wantsList
  | wantsSet
  | wantsPair
  | wantsText
  | notUnicode
  | wantsWhole
  | wholeUnreadable
  | wholeTooLarge
  | wholeFractional
  | wantsFinite
  | wantsMeasure
  | measureUnreadable
  | wantsFlag
  | flagUnreadable
  | tooSmall (least : Int)
  | notAbove (bound : Int)
  | tooLarge (most : Int)
  | notOneOf (names : List String)
  | patternMismatch (pattern : String)
  | tooLong (most actual : Nat)
  | rule (text : Text)
  deriving DecidableEq

namespace Complaint

/-- Names in single quotes, separated by commas, the last one after `or`. -/
def alternatives (names : List String) : String :=
  let shown := names.map fun n => "'" ++ n ++ "'"
  match shown.reverse with
  | [] => ""
  | [only] => only
  | last :: rest => ", ".intercalate rest.reverse ++ " or " ++ last

/-- The text of a defect. -/
def text : Complaint → Text
  | fieldRequired => "Field required"
  | wantsInstance model => "Input should be a valid dictionary or instance of " ++ model
  | wantsRecordOf model => "Input should be a dictionary or an instance of " ++ model
  | wantsDictionary => "Input should be a valid dictionary"
  | wantsList => "Input should be a valid list"
  | wantsSet => "Input should be a valid set"
  | wantsPair => "Input should be a valid tuple"
  | wantsText => "Input should be a valid string"
  | notUnicode => "Input should be a valid string, unable to parse raw data as a unicode string"
  | wantsWhole => "Input should be a valid integer"
  | wholeUnreadable => "Input should be a valid integer, unable to parse string as an integer"
  | wholeTooLarge => "Unable to parse input string as an integer, exceeded maximum size"
  | wholeFractional => "Input should be a valid integer, got a number with a fractional part"
  | wantsFinite => "Input should be a finite number"
  | wantsMeasure => "Input should be a valid number"
  | measureUnreadable => "Input should be a valid number, unable to parse string as a number"
  | wantsFlag => "Input should be a valid boolean"
  | flagUnreadable => "Input should be a valid boolean, unable to interpret input"
  | tooSmall least => "Input should be greater than or equal to " ++ toString least
  | notAbove bound => "Input should be greater than " ++ toString bound
  | tooLarge most => "Input should be less than or equal to " ++ toString most
  | notOneOf names => "Input should be " ++ alternatives names
  | patternMismatch pattern => "String should match pattern '" ++ pattern ++ "'"
  | tooLong most actual =>
    "Tuple should have at most " ++ toString most ++ " items after validation, not " ++ toString actual
  | rule text => "Value error, " ++ text

/-- The short tag that stands behind the text. -/
def tag : Complaint → String
  | fieldRequired => "missing"
  | wantsInstance _ => "model_type"
  | wantsRecordOf _ => "dataclass_type"
  | wantsDictionary => "dict_type"
  | wantsList => "list_type"
  | wantsSet => "set_type"
  | wantsPair => "tuple_type"
  | wantsText => "string_type"
  | notUnicode => "string_unicode"
  | wantsWhole => "int_type"
  | wholeUnreadable => "int_parsing"
  | wholeTooLarge => "int_parsing_size"
  | wholeFractional => "int_from_float"
  | wantsFinite => "finite_number"
  | wantsMeasure => "float_type"
  | measureUnreadable => "float_parsing"
  | wantsFlag => "bool_type"
  | flagUnreadable => "bool_parsing"
  | tooSmall _ => "greater_than_equal"
  | notAbove _ => "greater_than"
  | tooLarge _ => "less_than_equal"
  | notOneOf _ => "enum"
  | patternMismatch _ => "string_pattern_mismatch"
  | tooLong _ _ => "too_long"
  | rule _ => "value_error"

end Complaint

/-! ## Places -/

/-- A defect at the place that a path of field names and item numbers leads to. -/
structure Issue where
  path : List Text
  complaint : Complaint
  deriving DecidableEq

namespace Issue

/-- An issue seen from one level further out. -/
def below (step : Text) (issue : Issue) : Issue := { issue with path := step :: issue.path }

/-- The text of the defect has a character for each of its code points. -/
def isWritable (issue : Issue) : Bool := issue.complaint.text.toString?.isSome

/-- A step of a path as a report shows it: half of a surrogate pair as three characters that stand for what cannot
be shown. -/
def shownStep (step : Text) : Text :=
  ⟨step.points.flatMap fun p => if p.toChar?.isSome then [p] else List.replicate 3 (.ofChar '\ufffd')⟩

/-- The line of a report on one issue. -/
def line (issue : Issue) : Text :=
  Text.intercalate "." (issue.path.map shownStep) ++ ": " ++ issue.complaint.text ++ " [" ++ issue.complaint.tag ++ "]"

end Issue

/-- The report on a document, one line per issue. -/
def issuesText (issues : List Issue) : Text := Text.intercalate "\n" (issues.map Issue.line)

end Leftover
