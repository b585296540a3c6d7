/-
# Reading plans

Readings of jobs, vehicles, problems, routes and solutions. Fields that are not known are passed over.

* `readWindow` : a time window, as an object or as a pair of clock values
* `readProblem`, `readSolution` : whole documents
-/
import Leftover.Clock
import Leftover.Document.Reading

namespace Leftover

open Reading

/-! ## Times -/

/-- Minutes given as a number or as a clock text. -/
def readClock (v : Json) : Reading Float :=
  match Clock.minutes v with
  | .ok x => value x
  | .error (.clock fault) => complain (.rule fault.message)
  | .error fault => stopped fault

/-- A window from its fields; that it does not end before it starts is judged when its start is known. -/
def readWindowFields (fields : Fields) : Reading (Window Float) :=
  let opens := fields.required "start" readClock
  let closes := fields.required "end" fun v =>
    (readClock v).andThen fun t =>
      match opens with
      | value s => if t < s then complain (.rule "End time must not be before start time") else value t
      | _ => value t
  both (opens.map Window.mk) closes

/-- A time window: an object, or a list of its two ends. -/
def readWindow : Json → Reading (Window Float)
  | .list [opens, closes] => readWindowFields [("start", opens), ("end", closes)]
  | .list items =>
    complain (.rule ("Time window needs exactly two values, got " ++ toString items.length))
  | .record fields => readWindowFields fields
  | _ => complain (.wantsInstance "TimeWindow")

/-! ## Matrices -/

/-- A point on the globe. -/
def readCoordinates : Json → Reading (Coordinates Float) :=
  readFields (.wantsRecordOf "Coordinates") fun fields =>
    Coordinates.mk <$> fields.required "lat" readMeasure <*> fields.required "lon" readMeasure

/-- A table of a matrix. -/
def readTable : Json → Reading (List (List (Option Float))) :=
  readList (readList (readOptional readMeasure))

/-- Two tables as a matrix. -/
def matrixOfTables (tables : List (List (Option Float)) × List (List (Option Float))) :
    Reading (Matrix Float) :=
  match Matrix.make tables.1 tables.2 with
  | .ok m => value m
  | .error fault => complain (.rule (fault.message.getD ""))

/-- A travel matrix. -/
def readMatrix : Json → Reading (Matrix Float) :=
  readFields (.wantsRecordOf "RouteMatrix") fun fields =>
    (Prod.mk <$> fields.required "durations_minutes" readTable
      <*> fields.required "distances_meters" readTable).andThen matrixOfTables

/-! ## Jobs -/

/-- Amounts of which none is negative. -/
def readDemand (v : Json) : Reading (List Float) :=
  (readList readMeasure v).andThen fun amounts =>
    if amounts.any (fun x => decide (x < 0.0)) then complain (.rule "Demand values must be non-negative")
    else value amounts

/-- A job. -/
def readJob : Json → Reading (Job Float) :=
  readFields (.wantsInstance "Job") fun fields =>
    Job.mk <$> fields.required "id" readText
      <*> fields.required "location" readNat
      <*> fields.withDefault "coordinates" none (readOptional readCoordinates)
      <*> fields.withDefault "duration" 0.0 readNonNegative
      <*> fields.withDefault "skills" [] readSet
      <*> fields.withDefault "demand" [] readDemand
      <*> fields.withDefault "kind" .delivery (readName JobKind.all JobKind.name)
      <*> fields.withDefault "time_windows" [] (readList readWindow)
      <*> fields.withDefault "order" none (readOptional readWhole)
      <*> fields.withDefault "area_ids" [] readSet
      <*> fields.withDefault "break_eligible" true readFlag

/-! ## Vehicles -/

/-- A break. -/
def readBreak : Json → Reading (Break Float) :=
  readFields (.wantsInstance "Break") fun fields =>
    Break.mk <$> fields.required "time_window" readWindow
      <*> fields.required "duration" readNonNegative

/-- A dispatch. -/
def readDispatch : Json → Reading (Dispatch Float) :=
  readFields (.wantsInstance "Dispatch") fun fields =>
    Dispatch.mk <$> fields.withDefault "location" none (readOptional readNat)
      <*> fields.required "time_window" readWindow
      <*> fields.withDefault "duration" 0.0 readNonNegative

/-- An area. -/
def readArea : Json → Reading (Area Float) :=
  readFields (.wantsInstance "Area") fun fields =>
    Area.mk <$> fields.required "id" readText
      <*> fields.withDefault "shape" [] (readList (readPair readMeasure))

/-- A vehicle. -/
def readVehicle : Json → Reading (Vehicle Float) :=
  readFields (.wantsInstance "Vehicle") fun fields =>
    Vehicle.mk <$> fields.required "id" readText
      <*> fields.withDefault "profile" "car" readText
      <*> fields.withDefault "skills" [] readSet
      <*> fields.withDefault "capacity" [] (readList readMeasure)
      <*> fields.required "shift" readWindow
      <*> fields.required "start_location" readNat
      <*> fields.withDefault "end_location" none (readOptional readNat)
      <*> fields.withDefault "max_distance" none (readOptional readNonNegative)
      <*> fields.withDefault "max_duration" none (readOptional readNonNegative)
      <*> fields.withDefault "max_tour_size" none (readOptional readNat)
      <*> fields.withDefault "dispatch" none (readOptional readDispatch)
      <*> fields.withDefault "breaks" [] (readList readBreak)
      <*> fields.withDefault "allowed_areas" [] (readList readArea)

/-! ## Problems -/

/-- A relation. -/
def readRelation : Json → Reading Relation :=
  readFields (.wantsInstance "Relation") fun fields =>
    Relation.mk <$> fields.withDefault "type" .any (readName RelationType.all RelationType.name)
      <*> fields.required "jobs" (readList readText)
      <*> fields.required "vehicle_id" readText

/-- A problem whose job ids and vehicle ids do not repeat. -/
def uniqueIds (p : Problem Float) : Reading (Problem Float) :=
  match Problem.firstRepeated? [] (p.jobs.map (·.id)), Problem.firstRepeated? [] (p.fleet.map (·.id)) with
  | some id, _ => complain (.rule ("Duplicate job id '" ++ id ++ "'"))
  | none, some id => complain (.rule ("Duplicate vehicle id '" ++ id ++ "'"))
  | none, none => value p

/-- A problem. -/
def readProblem : Json → Reading (Problem Float) :=
  readFields (.wantsInstance "Problem") fun fields =>
    (Problem.mk <$> fields.required "jobs" (readList readJob)
      <*> fields.required "fleet" (readList readVehicle)
      <*> fields.withDefault "relations" [] (readList readRelation)
      <*> fields.withDefault "matrices" [] (readDictionary readMatrix)).andThen uniqueIds

/-! ## Solutions -/

/-- A stop. -/
def readStop : Json → Reading (Stop Float) :=
  readFields (.wantsInstance "Stop") fun fields =>
    Stop.mk <$> fields.required "job_id" readText
      <*> fields.withDefault "arrival" none (readOptional readMeasure)
      <*> fields.withDefault "departure" none (readOptional readMeasure)
      <*> fields.withDefault "load" [] (readList readMeasure)
      <*> fields.withDefault "distance" none (readOptional readMeasure)

/-- A route. -/
def readRoute : Json → Reading (Route Float) :=
  readFields (.wantsInstance "Route") fun fields =>
    Route.mk <$> fields.required "vehicle_id" readText
      <*> fields.withDefault "start_time" none (readOptional readClock)
      <*> fields.withDefault "stops" [] (readList readStop)
      <*> fields.withDefault "distance" none (readOptional readMeasure)
      <*> fields.withDefault "duration" none (readOptional readMeasure)

/-- A hint. -/
def readHint : Json → Reading (Hint Float) :=
  readFields (.wantsInstance "SearchViolation") fun fields =>
    Hint.mk <$> fields.required "code" (readName Reason.all Reason.name)
      <*> fields.withDefault "vehicle_id" none (readOptional readText)
      <*> fields.withDefault "severity" none (readOptional readNonNegative)

/-- A solution. -/
def readSolution : Json → Reading (Solution Float) :=
  readFields (.wantsInstance "Solution") fun fields =>
    Solution.mk <$> fields.withDefault "routes" [] (readList readRoute)
      <*> fields.withDefault "unassigned" [] (readList readText)
      <*> fields.withDefault "search_violations" [] (readDictionary (readList readHint))

end Leftover
