/-
# The command line

Two commands on a problem and a solution, each given as a file: `explain` tells why jobs were left over,
`audit` whether routes keep the limits of their vehicles.

* `Ending` : how a command ends other than by doing its work
* `run` : the outcome of a command line
-/
import Leftover.CommandLine.Host
import Leftover.CommandLine.Variables
import Leftover.CommandLine.Words
import Leftover.Decimal.Typed
import Leftover.Document.PlanReader
import Leftover.Document.SettingsReader
import Leftover.Json.Reader
import Leftover.Plan.Polygon
import Leftover.Report.Explain
import Leftover.Report.Summary
import Leftover.Text.Screen

namespace Leftover
namespace CommandLine

/-! ## Endings -/

/-- How a command ends when it does not do its work. -/
inductive Ending : Type where
  /-- Help was asked for. -/
  | help
  /-- The words make no sense. -/
  | misused (misuse : Misuse)
  /-- The work cannot be done, for a reason that is told, perhaps in detail. -/
  | refused (text : Text) (detail : Option Text)
  /-- A fault for which there is no text, and what was printed before it. -/
  | broken (fault : Fault) (output : String)
  deriving DecidableEq

/-- How a fault is told: in its own words, as invalid input, or not at all. -/
inductive Telling : Type where
  | asIs
  | asInvalid
  | notAtAll
  deriving DecidableEq

/-- How a fault is told. -/
def tellingOf : Fault → Telling
  | .unknownJob _ | .unknownVehicle _ | .noMatrix _ _ | .secondRoute _ | .routedAndLeft _ | .interrupted _ => .asIs
  | .outsideRoute _ _ | .outsideMatrix | .noSuchStop | .noRoute | .endlessTime | .undefinedCorner
  | .boundlessPoint | .noChecker | .noSuchField | .wrongKind | .numberTooLarge | .tooDeep | .positionTooLarge
  | .outOfMemory | .isDirectory | .notDirectory | .fileExists | .pathTooLong | .textCutShort | .unwritable
  | .configuration _ => .notAtAll
  | _ => .asInvalid

/-- The ending that a fault in the work means. -/
def endingOf (fault : Fault) : Ending :=
  match tellingOf fault with
  | .asIs => .refused (fault.message.getD "") none
  | .asInvalid => .refused "Invalid input" (fault.message.getD "not one JSON value")
  | .notAtAll => .broken fault ""

/-- What a command prints, what it logs, and its exit code. -/
structure Outcome where
  exitCode : Nat
  output : String
  log : List Text

/-! ## Words -/

/-- The options of all commands. -/
def groupSwitches : List Switch := [⟨["--config"], true⟩, ⟨["--verbose", "-v"], false⟩, ⟨["--help"], false⟩]

/-- The options of `explain`. -/
def explainSwitches : List Switch :=
  [⟨["--output", "-o"], true⟩, ⟨["--workers"], true⟩, ⟨["--exhaustive"], false⟩, ⟨["--summary"], false⟩,
   ⟨["--help"], false⟩]

/-- The options of `audit`. -/
def auditSwitches : List Switch := [⟨["--help"], false⟩]

/-- What a command is told by its words. -/
structure Request where
  problem : Text
  solution : Text
  output : Option Text
  workers : Option Int
  exhaustive : Bool
  summary : Bool

/-- The number of workers that is asked for. -/
def workersOf (given : List Words.Given) : Except Misuse (Option Int) :=
  match Words.value? given "--workers" with
  | none => .ok none
  | some word =>
    match typedWhole word with
    | .ok n => .ok (some n)
    | .error _ => .error (.notWhole "--workers" word)

section
variable {m : Type → Type} [Monad m]

/-- Something that went well, or a misuse. -/
def orMisuse {β : Type} : Except Misuse β → ExceptT Ending m β
  | .ok b => pure b
  | .error misuse => throw (.misused misuse)

/-- Something that went well, or a fault of the work. -/
def orFault {β : Type} : Except Fault β → ExceptT Ending m β
  | .ok b => pure b
  | .error fault => throw (endingOf fault)

/-- Something that went well, or a fault that breaks off the work whatever it is. -/
def orBroken {β : Type} : Except Fault β → ExceptT Ending m β
  | .ok b => pure b
  | .error fault => throw (.broken fault "")

/-- A path that has to lead somewhere. -/
def existing (host : Host m) (argument : String) (word : Option Text) : ExceptT Ending m Text := do
  match word with
  | none => throw (.misused (.argumentMissing argument))
  | some word =>
    let path ← orBroken (systemText word)
    match ← host.kindOf path with
    | .missing | .tooLong => throw (.misused (.noSuchPath argument word))
    | .file | .directory => return path

/-- What a command is told by its words. -/
def request (host : Host m) (switches : List Switch) (words : List Text) : ExceptT Ending m Request := do
  let (given, arguments) ← orMisuse (Words.scan true switches words)
  if Words.isGiven given "--help" then throw .help
  let workers ← orMisuse (workersOf given)
  let problem ← existing host "PROBLEM_FILE" arguments[0]?
  let solution ← existing host "SOLUTION_FILE" arguments[1]?
  if 2 < arguments.length then throw (.misused (.extraArguments (arguments.drop 2)))
  return ⟨problem, solution, (Words.value? given "--output").filter (!·.isEmpty), workers,
    Words.isGiven given "--exhaustive", Words.isGiven given "--summary"⟩

/-! ## Files -/

/-- The text of a file. -/
def readFile (host : Host m) (path : Text) : ExceptT Ending m String := do
  if (← host.kindOf path) = .directory then throw (.broken .isDirectory "")
  host.read path

/-- The fault that a text means which is not read. -/
def faultOf : Json.Flaw → Fault
  | .malformed => .notJson
  | .tooDeep => .tooDeep

/-- The document in a file. -/
def readDocument {β : Type} (host : Host m) (read : Json → Reading β) (path : Text) : ExceptT Ending m β := do
  let text ← readFile host path
  match Json.read text with
  | .error flaw => throw (endingOf (faultOf flaw))
  | .ok document => orFault (read document).toExcept

/-- The document in a configuration file; an empty one says nothing. -/
def configurationOf (text : String) : Except Fault (Settings Float) :=
  if text.all Char.isWhitespace then .ok {}
  else
    match Json.read text with
    | .error .malformed => .error (.configuration none)
    | .error .tooDeep => .error .tooDeep
    | .ok document => readConfiguration document

/-- The settings of a configuration file, which messages show by its word. -/
def settingsIn (host : Host m) (path word : Text) : ExceptT Ending m (Settings Float) := do
  match configurationOf (← readFile host path) with
  | .ok settings => return settings
  | .error (.configuration issues) =>
    throw (.refused ("Invalid configuration in " ++ word) ((Fault.configuration issues).message))
  | .error fault => throw (.broken fault "")

/-- The settings of the configuration file that a word leads to. A word that leads to none means the defaults, and
so does one that stands for no path. -/
def loadSettings (host : Host m) (word : Text) : ExceptT Ending m (Settings Float) := do
  let word := Path.normal word
  match systemText word with
  | .error _ => return {}
  | .ok path =>
    match ← host.kindOf path with
    | .missing => return {}
    | .tooLong => throw (.broken .pathTooLong "")
    | .file | .directory => settingsIn host path word

/-- The name of the file in the current directory that may set variables. -/
def variableFile : String := ".env"

/-- The variables that the file for them sets. -/
def fileVariables (host : Host m) : m (List (Text × Option Text)) := do
  if (← host.kindOf variableFile) = .file then
    let bindings := Variables.resolve host.environment (Variables.bindings (← host.read variableFile))
    return bindings.map fun (name, value) => (.ofString name, value.map .ofString)
  else return []

/-- The settings that a command works with. -/
def settingsFor (host : Host m) (config : Text) : ExceptT Ending m (Settings Float) := do
  let file ← (fileVariables host : m _)
  let environment := host.environment.map fun (name, value) => (Text.ofString name, Text.ofString value)
  let told ← orBroken (readEnvironment environment file).toExcept
  return (← loadSettings host (if config.isEmpty then told.configPath else config)).under told

/-! ## Commands -/

/-- What a command has found out, with the warnings that it logs. -/
def observed {β : Type} (x : Observed Float β) : ExceptT Ending m (β × List Text) := do
  let b ← orFault x.outcome
  return (b, x.warnings.map Warning.message)

/-- The settings with what the words ask for. -/
def adjust (r : Request) (s : DiagnosisSettings Float) : Except Misuse (DiagnosisSettings Float) :=
  match r.workers with
  | some n =>
    if n < 1 then .error (.tooSmall "--workers" 1)
    else .ok { s with maxWorkers := n, exhaustive := s.exhaustive || r.exhaustive }
  | none => .ok { s with exhaustive := s.exhaustive || r.exhaustive }

/-- The entry of a job, looking at the clock before the job is evaluated. -/
def explainByClock (host : Host m) (e : Evaluator Float) (deadline : Option Float) (job : Job Float) :
    m (List (Warning Float) × Entry Float) := do
  let now ← host.now
  return e.builder.explain (isLate (deadline.map fun d => ⟨d, fun _ _ => now⟩) job.id) job

/-- The report on a solution, with log and elapsed seconds. -/
def report (host : Host m) (s : DiagnosisSettings Float) (p : Problem Float) (solution : Solution Float) :
    ExceptT Ending m (Report Float × List Text × Float) := do
  let (_, audited) ← observed (audit p solution)
  let (e, built) ← observed (Evaluator.buildFor p solution (some (.without s.disabled)) s)
  let started ← host.now
  let (jobs, listed) ← observed (leftoverJobs p solution)
  let explained ← (jobs.mapM (explainByClock host e (s.timeLimit.map (started + ·))) : m _)
  let ended ← host.now
  let log := audited ++ built ++ listed ++ (explained.flatMap (·.1)).map Warning.message
  return (⟨explained.map (·.2)⟩, log, ended - started)

/-- A line as it is printed, without control sequences. -/
def printedLine (text : Text) : Except Fault String :=
  match text.withoutControls.toString? with
  | some line => .ok (line ++ "\n")
  | none => .error .unwritable

/-- The report written to a file or printed. -/
def deliver (host : Host m) (r : Request) (found : Report Float) : ExceptT Ending m String := do
  match r.output with
  | none => return found.text (some 2) ++ "\n"
  | some word =>
    let word := Path.normal word
    orBroken (← host.makeWay (← orBroken (systemText (Path.parent word))))
    orBroken (← host.write (← orBroken (systemText word)) (found.text (some 2)))
    orBroken (printedLine ("Wrote " ++ toString found.size ++ " unassigned job(s) to " ++ word))

/-- The lines of some texts, up to the first one that cannot be written. -/
def lines (texts : List Text) : Except String String :=
  texts.foldl (fun done t => do
    let done ← done
    match printedLine t with
    | .ok line => .ok (done ++ line)
    | .error _ => .error done) (.ok "")

/-- Tells why jobs were left over. -/
def explain (host : Host m) (config : Text) (words : List Text) : ExceptT Ending m Outcome := do
  let r ← request host explainSwitches words
  let settings ← settingsFor host config
  let diagnosis ← orMisuse (adjust r settings.diagnosis)
  let p ← readDocument host readProblem r.problem
  let solution ← readDocument host readSolution r.solution
  let (found, log, elapsed) ← report host diagnosis p solution
  let output ← deliver host r found
  let summary := if r.summary then found.summaryText (some (toString p.jobs.length)) elapsed else ""
  return ⟨0, output ++ summary, log⟩

/-- Tells whether routes keep the limits of their vehicles. -/
def auditRoutes (host : Host m) (config : Text) (words : List Text) : ExceptT Ending m Outcome := do
  let r ← request host auditSwitches words
  let _ ← settingsFor host config
  let p ← readDocument host readProblem r.problem
  let solution ← readDocument host readSolution r.solution
  let (violations, log) ← observed (audit p solution)
  if violations.isEmpty then return ⟨0, "All routes within vehicle limits\n", log⟩
  else
    match lines (violations.map LimitViolation.message) with
    | .ok output => return ⟨1, output, log⟩
    | .error output => throw (.broken .unwritable output)

/-- The commands. -/
inductive Command : Type where
  | explain
  | audit
  deriving DecidableEq

/-- The name of a command. -/
def Command.name : Command → String
  | explain => "explain"
  | audit => "audit"

/-- All commands. -/
def Command.all : List Command := [.explain, .audit]

/-- The work of a command. -/
def Command.work (host : Host m) (config : Text) (words : List Text) : Command → ExceptT Ending m Outcome
  | explain => CommandLine.explain host config words
  | audit => auditRoutes host config words

/-! ## Running -/

/-- The options in front of a command, and the words from its name on. -/
def groupOptions (words : List Text) : ExceptT Ending m (List Words.Given × List Text) := do
  if words.isEmpty then throw .help
  let (given, rest) ← orMisuse (Words.scan false groupSwitches words)
  if Words.isGiven given "--help" then throw .help
  return (given, rest)

/-- The work of a command line. A name that no command has may be an option after all. -/
def work (host : Host m) (words : List Text) : ExceptT Ending m Outcome := do
  let (given, rest) ← groupOptions words
  match rest with
  | [] => throw (.misused .commandMissing)
  | name :: words =>
    match Command.all.find? fun c => c.name = name with
    | some c => c.work host ((Words.value? given "--config").getD ({} : Environment).configPath) words
    | none =>
      discard (groupOptions (name :: words))
      throw (.misused (.unknownCommand name (Similar.nearest (Command.all.map fun c => c.name) name)))

/-- The text that help shows. -/
def usage : String :=
  "Usage: leftover [--config FILE] [--verbose] explain PROBLEM_FILE SOLUTION_FILE [--output FILE]\n"
    ++ "         [--workers N] [--exhaustive] [--summary]\n"
    ++ "       leftover [--config FILE] [--verbose] audit PROBLEM_FILE SOLUTION_FILE\n"

/-- An error as it is printed, on a line of its own. -/
def errorLine (text : Text) : String := ("Error: " ++ text).withoutControls.escaped ++ "\n"

/-- What is printed at an ending, and the exit code. -/
def closing : Ending → Outcome
  | .help => ⟨0, usage, []⟩
  | .misused misuse => ⟨2, usage ++ "\n" ++ errorLine misuse.message, []⟩
  | .refused text none => ⟨1, errorLine text, []⟩
  | .refused text (some detail) => ⟨1, errorLine (text ++ ": " ++ detail), []⟩
  | .broken _ output => ⟨1, output, []⟩

/-- The outcome of a command line, with the fault that broke it off if there is one. -/
def run (host : Host m) (words : List Text) : m (Outcome × Option Fault) := do
  match ← (work host words).run with
  | .ok outcome => return (outcome, none)
  | .error (.broken fault output) => return (closing (.broken fault output), some fault)
  | .error ending => return (closing ending, none)

end

end CommandLine
end Leftover
