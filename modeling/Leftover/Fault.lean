/-
# Faults

Everything that can stop a step: references to what does not exist, solutions that contradict themselves,
values that cannot be used, documents that do not describe what they should.

* `Fault` : the causes
* `Fault.message` : their texts, for those that have one
* `Fault.tellable` : what is left of a fault when its issues cannot be told
* `Fault.ends` : the faults that stop the evaluation of a job, not only of one constraint
-/
import Leftover.Issue
import Leftover.Reason
import Leftover.Text.Quoted

namespace Leftover

/-! ## Clock texts -/

/-- What is wrong with a clock text. -/
inductive ClockFault : Type where
  | unreadable (text : Text)
  | hourRange
  | minuteRange
  | secondRange
  | offsetRange (millionths : Int)
  deriving DecidableEq

/-- A span of time in days, seconds and millionths of a second, of which only the days may be negative. -/
def spanText (millionths : Int) : String :=
  let seconds := Int.fdiv millionths 1000000
  let part (name : String) (n : Int) : List String := if n = 0 then [] else [name ++ "=" ++ toString n]
  "datetime.timedelta(" ++ ", ".intercalate (part "days" (Int.fdiv seconds 86400)
    ++ part "seconds" (Int.fmod seconds 86400) ++ part "microseconds" (Int.fmod millionths 1000000)) ++ ")"

/-- The text of a clock fault. -/
def ClockFault.message : ClockFault → String
  | unreadable text => "Invalid isoformat string: " ++ quoted text
  | hourRange => "hour must be in 0..23"
  | minuteRange => "minute must be in 0..59"
  | secondRange => "second must be in 0..59"
  | offsetRange millionths =>
    "offset must be a timedelta strictly between -timedelta(hours=24) and timedelta(hours=24), not "
      ++ spanText millionths ++ "."

/-! ## Causes -/

/-- Why a step was stopped. -/
inductive Fault : Type where
  /-- The problem has no such job. -/
  | unknownJob (id : Text)
  /-- The problem has no such vehicle. -/
  | unknownVehicle (id : Text)
  /-- The problem has no travel matrix for the profile of a vehicle. -/
  | noMatrix (profile vehicle : Text)
  /-- The solution gives a vehicle two routes. -/
  | secondRoute (vehicle : Text)
  /-- Jobs are in a route and left over at once. -/
  | routedAndLeft (jobs : List Text)
  /-- The deadline passed while a job was evaluated. -/
  | interrupted (job : Text)
  /-- No job can be inserted at this position. -/
  | outsideRoute (shown : String) (stops : Nat)
  /-- A location has no row or column in the matrix. -/
  | outsideMatrix
  /-- A route has no stop at this position. -/
  | noSuchStop
  /-- No route belongs to this vehicle. -/
  | noRoute
  /-- A time without end has no clock text. -/
  | endlessTime
  /-- An undefined time has no clock text. -/
  | undefinedTime
  /-- An area has one or two corners. -/
  | tooFewCorners
  /-- The first corner of an area is undefined. -/
  | undefinedCorner
  /-- A point without bounds lies on no side of a line. -/
  | boundlessPoint
  /-- There is nothing to choose from. -/
  | noCandidate
  /-- A reason that no constraint stands behind cannot be checked. -/
  | noChecker
  /-- Two checkers for one reason. -/
  | repeatedChecker (codes : List Reason)
  /-- A checker for the reason that stands for none. -/
  | fallbackChecker
  /-- The two tables of a matrix differ in size. -/
  | matrixSizes (durations distances : Nat)
  /-- A row of a matrix is too long or too short. -/
  | matrixRow (length size : Nat)
  /-- A value is no name of a family. -/
  | unknownName (shown family : String)
  /-- A step of a session is none of those known. -/
  | unknownStep (name : Text)
  /-- A clock text cannot be used. -/
  | clock (fault : ClockFault)
  /-- A text is no number. -/
  | notANumber (text : Text)
  /-- A text is no whole number. -/
  | notWhole (text : Text)
  /-- A whole number has too many digits. -/
  | tooManyDigits (most digits : Nat)
  /-- A text cannot be written with decimal places. -/
  | notAFigure
  /-- An object has no field of this name. -/
  | noSuchField
  /-- A value is of a kind that cannot be used. -/
  | wrongKind
  /-- A whole number is beyond the range of doubles. -/
  | numberTooLarge
  /-- A text is not one JSON value. -/
  | notJson
  /-- A text is nested too deep. -/
  | tooDeep
  /-- A position in a list is beyond every list. -/
  | positionTooLarge
  /-- A list is longer than can be held. -/
  | outOfMemory
  /-- A path leads to a directory. -/
  | isDirectory
  /-- A path leads through a file as if it were a directory. -/
  | notDirectory
  /-- A directory cannot be made where a file is. -/
  | fileExists
  /-- A path or a name in it is too long. -/
  | pathTooLong
  /-- A text for the system holds the character that ends texts there. -/
  | textCutShort
  /-- A text has no characters for some of its code points. -/
  | unwritable
  /-- A document has issues. -/
  | invalid (issues : List Issue)
  /-- A configuration is no object, or has issues. -/
  | configuration (issues : Option (List Issue))
  deriving DecidableEq

namespace Fault

/-- A reason as a message about checkers shows it. -/
def reasonText (r : Reason) : String := "<ReasonCode." ++ r.name ++ ": '" ++ r.name ++ "'>"

/-- The text of a fault, for those that have one. -/
def message : Fault → Option Text
  | unknownJob id => some ("Unknown job id '" ++ id ++ "'")
  | unknownVehicle id => some ("Unknown vehicle id '" ++ id ++ "'")
  | noMatrix profile vehicle =>
    some ("No routing matrix for profile '" ++ profile ++ "' of vehicle '" ++ vehicle ++ "'")
  | secondRoute vehicle => some ("Vehicle '" ++ vehicle ++ "' has more than one route")
  | routedAndLeft jobs => some ("Jobs both routed and unassigned: " ++ quotedList jobs)
  | interrupted job => some ("Evaluation of job '" ++ job ++ "' interrupted by deadline")
  | outsideRoute shown stops =>
    some ("Insertion position " ++ shown ++ " outside route of " ++ toString stops ++ " stops")
  | undefinedTime => some "cannot convert float NaN to integer"
  | tooFewCorners => some "A linearring requires at least 4 coordinates."
  | noCandidate => some "min() arg is an empty sequence"
  | repeatedChecker codes =>
    some ("Each reason code may have only one checker, got " ++ bracketed (codes.map reasonText))
  | fallbackChecker => some "NO_REASON_FOUND is a fallback and cannot have a checker"
  | matrixSizes durations distances =>
    some ("Matrix size mismatch: " ++ toString durations ++ " duration rows, " ++ toString distances
      ++ " distance rows")
  | matrixRow length size =>
    some ("Matrix must be square, got row of " ++ toString length ++ " for size " ++ toString size)
  | unknownName shown family => some (shown ++ " is not a valid " ++ family)
  | unknownStep name => some ("Unknown step " ++ name)
  | clock fault => some fault.message
  | notANumber text => some ("could not convert string to float: " ++ quoted text)
  | notWhole text =>
    some ("invalid literal for int() with base 10: " ++ String.ofList ((quoted text).toList.take 200))
  | tooManyDigits most digits =>
    some ("Exceeds the limit (" ++ toString most ++ " digits) for integer string conversion: value has "
      ++ toString digits ++ " digits; use sys.set_int_max_str_digits() to increase the limit")
  | textCutShort => some "embedded null byte"
  | notAFigure => some "Unknown format code 'f' for object of type 'str'"
  | invalid issues => some (issuesText issues)
  | configuration issues => some ((issues.map issuesText).getD "")
  | outsideMatrix | noSuchStop | noRoute | endlessTime | undefinedCorner | boundlessPoint | noChecker
  | noSuchField | wrongKind | numberTooLarge | notJson | tooDeep | positionTooLarge | outOfMemory | isDirectory
  | notDirectory | fileExists | pathTooLong | unwritable => none

/-- The fault as it can be told. Issues are told together, so that none of them is if the text of one cannot be
written. -/
def tellable : Fault → Fault
  | invalid issues => if issues.all Issue.isWritable then invalid issues else unwritable
  | fault => fault

/-- The fault stops the evaluation of a job. Any other fault of a checker only means that its constraint
cannot be judged. -/
def ends : Fault → Bool
  | undefinedCorner | boundlessPoint => true
  | _ => false

end Fault

end Leftover
