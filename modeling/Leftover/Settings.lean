/-
# Settings

How a diagnosis is run, and the rest of an application's configuration.

* `DiagnosisSettings` : mode, tie-break, workers, time limit, search hints, disabled reasons
* `Settings` : these with the names and log settings of an application
* `Environment` : what the environment may override
-/
import Leftover.Reason
import Leftover.Text

namespace Leftover

/-! ## Diagnosis -/

/-- How the vehicle shown for a reason is picked: the one that came closest, or the first of the fleet. -/
inductive TieBreak : Type where
  | nearestMiss
  | fleetOrder
  deriving DecidableEq, Repr, Inhabited

namespace TieBreak

/-- The policies, in the order in which a message lists them. -/
def all : List TieBreak := [nearestMiss, fleetOrder]

/-- The written policy. -/
def name : TieBreak → String
  | nearestMiss => "nearest_miss"
  | fleetOrder => "fleet_order"

end TieBreak

/-- Settings of a diagnosis. `exhaustive` judges every constraint at every position; without it a position
is left at its first violation. -/
structure DiagnosisSettings (α : Type) where
  exhaustive : Bool := false
  tieBreak : TieBreak := .nearestMiss
  maxWorkers : Int := 1
  timeLimit : Option α := none
  useHints : Bool := true
  disabled : List Reason := []
  deriving DecidableEq

/-! ## Applications -/

/-- The log levels. -/
def logLevels : List String := ["DEBUG", "INFO", "WARNING", "ERROR"]

/-- The pattern that stands for them in a message. -/
def logLevelPattern : String := "^(" ++ "|".intercalate logLevels ++ ")$"

/-- What is logged, and in which layout. -/
structure LogSettings where
  level : String := "INFO"
  format : Text := "%(asctime)s - %(name)s - %(levelname)s - %(message)s"
  deriving DecidableEq

/-- The name and version that an application goes by. -/
structure ProjectSettings where
  name : Text := "VRP Unassigned Diagnostics"
  version : Text := "0.1.0"
  deriving DecidableEq

/-- The configuration of an application. -/
structure Settings (α : Type) where
  project : ProjectSettings := {}
  diagnosis : DiagnosisSettings α := {}
  logging : LogSettings := {}
  deriving DecidableEq

/-! ## Environment -/

/-- What environment variables say: where the configuration is, and a log level above that of the
configuration. -/
structure Environment where
  configPath : Text := "config/params.yaml"
  logLevel : Option String := none
  deriving DecidableEq

/-- Settings with the log level of the environment, if it has one. -/
def Settings.under {α : Type} (s : Settings α) (e : Environment) : Settings α :=
  match e.logLevel with
  | some level => { s with logging := { s.logging with level } }
  | none => s

end Leftover
