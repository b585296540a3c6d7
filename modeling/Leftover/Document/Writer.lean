/-
# Writing documents

The full document of each model: every field, in the order in which it is read.
-/
import Leftover.Json.Value
import Leftover.Number
import Leftover.Plan.Solution
import Leftover.Settings

namespace Leftover

/-- A value as a document. -/
class Documented (β : Type) where
  document : β → Json

export Documented (document)

instance : Documented Json := ⟨id⟩
instance : Documented Text := ⟨.text⟩
instance : Documented String := ⟨fun s => .text s⟩
instance : Documented Float := ⟨.measure⟩
instance : Documented Int := ⟨.whole⟩
instance : Documented Nat := ⟨fun n => .whole n⟩
instance : Documented Bool := ⟨.flag⟩

instance : Documented Number where
  document
    | .flag b => .flag b
    | .whole n => .whole n
    | .measure x => .measure x
    | .beyond => .null

section
variable {β γ : Type} [Documented β] [Documented γ]

instance : Documented (Option β) := ⟨Json.ofOption document⟩
instance : Documented (List β) := ⟨Json.ofList document⟩
instance : Documented (β × γ) := ⟨fun p => .list [document p.1, document p.2]⟩

end

/-! ## Plans -/

instance : Documented (Window Float) where
  document w := .record [("start", document w.opens), ("end", document w.closes)]

instance : Documented (Coordinates Float) where
  document c := .record [("lat", document c.lat), ("lon", document c.lon)]

instance : Documented (Matrix Float) where
  document m := .record
    [("durations_minutes", document m.durations), ("distances_meters", document m.distances)]

instance : Documented JobKind := ⟨fun k => .text k.name⟩
instance : Documented RelationType := ⟨fun t => .text t.name⟩
instance : Documented Reason := ⟨fun r => .text r.name⟩
instance : Documented TieBreak := ⟨fun t => .text t.name⟩

instance : Documented (Job Float) where
  document j := .record
    [("id", document j.id), ("location", document j.location), ("coordinates", document j.coordinates),
     ("duration", document j.duration), ("skills", document j.skills), ("demand", document j.demand),
     ("kind", document j.kind), ("time_windows", document j.windows), ("order", document j.order),
     ("area_ids", document j.areaIds), ("break_eligible", document j.breakEligible)]

instance : Documented (Break Float) where
  document b := .record [("time_window", document b.window), ("duration", document b.duration)]

instance : Documented (Dispatch Float) where
  document d := .record
    [("location", document d.location), ("time_window", document d.window),
     ("duration", document d.duration)]

instance : Documented (Area Float) where
  document a := .record [("id", document a.id), ("shape", document a.shape)]

instance : Documented (Vehicle Float) where
  document v := .record
    [("id", document v.id), ("profile", document v.profile), ("skills", document v.skills),
     ("capacity", document v.capacity), ("shift", document v.shift),
     ("start_location", document v.startLocation), ("end_location", document v.endLocation),
     ("max_distance", document v.maxDistance), ("max_duration", document v.maxDuration),
     ("max_tour_size", document v.maxTourSize), ("dispatch", document v.dispatch),
     ("breaks", document v.breaks), ("allowed_areas", document v.allowedAreas)]

instance : Documented Relation where
  document r := .record
    [("type", document r.type), ("jobs", document r.jobs), ("vehicle_id", document r.vehicleId)]

instance : Documented (Problem Float) where
  document p := .record
    [("jobs", document p.jobs), ("fleet", document p.fleet), ("relations", document p.relations),
     ("matrices", .record (p.matrices.map fun (profile, m) => (profile, document m)))]

instance : Documented (Stop Float) where
  document s := .record
    [("job_id", document s.jobId), ("arrival", document s.arrival), ("departure", document s.departure),
     ("load", document s.load), ("distance", document s.distance)]

instance : Documented (Route Float) where
  document r := .record
    [("vehicle_id", document r.vehicleId), ("start_time", document r.startTime),
     ("stops", document r.stops), ("distance", document r.distance), ("duration", document r.duration)]

instance : Documented (Hint Float) where
  document h := .record
    [("code", document h.code), ("vehicle_id", document h.vehicleId), ("severity", document h.severity)]

instance : Documented (Solution Float) where
  document s := .record
    [("routes", document s.routes), ("unassigned", document s.unassigned),
     ("search_violations", .record (s.hints.map fun (id, hints) => (id, document hints)))]

/-! ## Settings -/

instance : Documented (DiagnosisSettings Float) where
  document s := .record
    [("exhaustive", document s.exhaustive), ("tie_break", document s.tieBreak),
     ("max_workers", document s.maxWorkers), ("time_limit_seconds", document s.timeLimit),
     ("use_search_evidence", document s.useHints), ("disabled_codes", document s.disabled)]

instance : Documented LogSettings where
  document s := .record [("level", document s.level), ("format", document s.format)]

instance : Documented ProjectSettings where
  document s := .record [("name", document s.name), ("version", document s.version)]

instance : Documented (Settings Float) where
  document s := .record
    [("project", document s.project), ("diagnostics", document s.diagnosis),
     ("logging", document s.logging)]

instance : Documented Environment where
  document e := .record [("config_path", document e.configPath), ("log_level", document e.logLevel)]

end Leftover
