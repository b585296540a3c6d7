/-
# Reading settings

* `readDiagnosisSettings`, `readSettings` : settings from a document
* `readConfiguration` : settings from the document of a configuration file
* `readEnvironment` : settings from environment variables
-/
import Leftover.Document.Reading
import Leftover.Settings

namespace Leftover

open Reading

/-! ## Documents -/

/-- A number of workers. -/
def readWorkers (v : Json) : Reading Int :=
  (readWhole v).andThen fun n =>
    if n < 1 then complain (.tooSmall 1) else if 64 < n then complain (.tooLarge 64) else value n

/-- Reasons that are not judged; the one that stands for none cannot be among them. -/
def readDisabled (v : Json) : Reading (List Reason) :=
  (readList (readName Reason.all Reason.name) v).andThen fun codes =>
    if codes.contains .unexplained then complain (.rule "NO_REASON_FOUND cannot be disabled")
    else value codes

/-- A log level. -/
def readLevel (v : Json) : Reading String :=
  ((readText v).andThen readString).andThen fun s =>
    if logLevels.contains s then value s else complain (.patternMismatch logLevelPattern)

/-- Settings of a diagnosis, from the fields of an object. -/
def readDiagnosisFields (fields : Fields) : Reading (DiagnosisSettings Float) :=
  DiagnosisSettings.mk <$> fields.withDefault "exhaustive" false readFlag
    <*> fields.withDefault "tie_break" .nearestMiss (readName TieBreak.all TieBreak.name)
    <*> fields.withDefault "max_workers" 1 readWorkers
    <*> fields.withDefault "time_limit_seconds" none (readOptional readPositive)
    <*> fields.withDefault "use_search_evidence" true readFlag
    <*> fields.withDefault "disabled_codes" [] readDisabled

/-- Settings of a diagnosis. -/
def readDiagnosisSettings : Json → Reading (DiagnosisSettings Float) :=
  readFields (.wantsInstance "DiagnosticsConfig") readDiagnosisFields

/-- Log settings. -/
def readLogSettings : Json → Reading LogSettings :=
  readFields (.wantsInstance "LoggingConfig") fun fields =>
    LogSettings.mk <$> fields.withDefault "level" ({} : LogSettings).level readLevel
      <*> fields.withDefault "format" ({} : LogSettings).format readText

/-- Project settings. -/
def readProjectSettings : Json → Reading ProjectSettings :=
  readFields (.wantsInstance "ProjectConfig") fun fields =>
    ProjectSettings.mk <$> fields.withDefault "name" ({} : ProjectSettings).name readText
      <*> fields.withDefault "version" ({} : ProjectSettings).version readText

/-- The configuration of an application, from the fields of an object. -/
def readSettingsFields (fields : Fields) : Reading (Settings Float) :=
  Settings.mk <$> fields.withDefault "project" {} readProjectSettings
    <*> fields.withDefault "diagnostics" {} readDiagnosisSettings
    <*> fields.withDefault "logging" {} readLogSettings

/-- The configuration of an application. -/
def readSettings : Json → Reading (Settings Float) :=
  readFields (.wantsInstance "AppConfig") readSettingsFields

/-- The fields of an object; any other value is of a kind that cannot be used. -/
def fieldsOf : Json → Except Fault Fields
  | .record fields => .ok fields
  | _ => .error .wrongKind

/-! ## Configuration files -/

/-- The value says nothing: it is null, false, zero or empty. -/
def saysNothing : Json → Bool
  | .null => true
  | .flag b => !b
  | .whole n => n = 0
  | .measure x => x == 0.0
  | .text s => s.isEmpty
  | .list items => items.isEmpty
  | .record fields => fields.isEmpty

/-- The settings of a configuration file's document. One that says nothing means the defaults. -/
def readConfiguration (document : Json) : Except Fault (Settings Float) :=
  if saysNothing document then .ok {}
  else
    match document with
    | .record fields =>
      match readSettingsFields fields with
      | value s => .ok s
      | issues list => .error (.configuration (some list))
      | stopped fault => .error fault
    | _ => .error (.configuration none)

/-! ## Environment variables -/

/-- What the names of the variables begin with. -/
def variablePrefix : String := "VRPDIAG_"

/-- The value given last for a variable, whose name is not case-sensitive. -/
def settingOf? (bindings : List (Text × Option Text)) (name : String) : Option Text :=
  let isNamed (v : Text × Option Text) : Bool :=
    v.1.toString?.map String.toLower = some (variablePrefix ++ name).toLower
  ((bindings.reverse.find? isNamed).map (·.2)).join

/-- The settings of environment variables. Those of the environment itself go before those of a file. -/
def readEnvironment (environment : List (Text × Text)) (file : List (Text × Option Text)) :
    Reading Environment :=
  let told := environment.map fun v => (v.1, some v.2)
  let setting? (name : String) : Option Text := (settingOf? told name).or (settingOf? file name)
  let level : Reading (Option String) := match setting? "log_level" with
    | none => value none
    | some s => ((readLevel (.text s)).below "log_level").map some
  level.map fun logLevel => ⟨(setting? "config_path").getD ({} : Environment).configPath, logLevel⟩

end Leftover
