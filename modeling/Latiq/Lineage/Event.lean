import Latiq.Library.RustStr
import Latiq.Library.Serde

/-!
# Lineage events

The OpenLineage `RunEvent` and the facets that a node emits. A facet is built by `Facet.stamp` alone, which puts
`_producer` and `_schemaURL` into its body.

* `RunEvent`, `Run`, `Job`, `Dataset` — the event.
* `Facet` — a facet's body, with the key that it hangs under, and one constructor for each facet that is emitted.
* `datasetNamespace`, `jobName` — the names that are the node's own convention.

## What is proved

* `Facet.stamped` — every facet has the two members that the specification asks for.
* `jobName_eq_iff` — what two target names give one job.
-/

namespace Latiq.Lineage

open RustStr (Text)
open Serde (Value)

/-! ### The event -/

/-- `EventType`. -/
inductive EventType where
  | start
  | running
  | complete
  | abort
  | fail
  | other
  deriving DecidableEq, Repr

/-- Whether an event ends its run. -/
def EventType.isTerminal : EventType → Bool
  | complete | abort | fail => true
  | start | running | other => false

/-- Facets by key, as a map lists them. -/
abbrev Facets := List (String × Value)

/-- A facet's body, with its key. -/
structure Facet where
  key : String
  body : Value

/-- `Run`. -/
structure Run where
  runId : Text
  facets : Facets

/-- `Job`. -/
structure Job where
  ns : Text
  name : Text
  facets : Facets

/-- `Dataset`. -/
structure Dataset where
  ns : Text
  name : Text
  facets : Facets

/-- `RunEvent`. -/
structure RunEvent where
  eventTime : Text
  eventType : EventType
  run : Run
  job : Job
  inputs : List Dataset
  outputs : List Dataset

/-- `with`, of a run, a job or a dataset. -/
def Facets.with (fs : Facets) (f : Facet) : Facets := Serde.insert f.key f.body fs

def Run.with (r : Run) (f : Facet) : Run := { r with facets := r.facets.with f }

def Job.with (j : Job) (f : Facet) : Job := { j with facets := j.facets.with f }

def Dataset.with (d : Dataset) (f : Facet) : Dataset := { d with facets := d.facets.with f }

/-! ### Facets -/

/-- A text of the program, as a value. -/
def text (s : String) : Value := .str s.toList

/-- An object of these members. -/
def object (members : List (String × Value)) : List (String × Value) :=
  members.foldl (fun m e => Serde.insert e.1 e.2 m) []

def producer : String := "https://github.com/neonexia/latiq"

/-- `JOB_NAMESPACE`. -/
def jobNamespace : String := "latiq"

/-- `CARGO_PKG_VERSION`. -/
def adapterVersion : String := "0.1.1"

namespace Facet

/-- `Facet::stamp`. -/
def stamp (key schemaUrl : String) (body : List (String × Value)) : Facet where
  key
  body := .obj (Serde.insert "_schemaURL" (text schemaUrl) (Serde.insert "_producer" (text producer) (object body)))

/-- Every facet carries `_producer` and `_schemaURL`. -/
theorem stamped (key schemaUrl : String) (body : List (String × Value)) :
    (stamp key schemaUrl body).body.get? "_producer" = some (text producer) ∧
      (stamp key schemaUrl body).body.get? "_schemaURL" = some (text schemaUrl) := by
  unfold stamp Serde.Value.get?
  simp only [Serde.lookup_insert]
  exact ⟨rfl, rfl⟩

def specUrl (version name : String) : String :=
  "https://openlineage.io/spec/facets/" ++ version ++ "/" ++ name ++ ".json#/$defs/" ++ name

def latiqUrl (name version : String) : String :=
  "https://raw.githubusercontent.com/neonexia/latiq/lineage-facets-" ++ version ++ "/crates/latiq-lineage/spec/facets/" ++
    version ++ "/" ++ name ++ ".json#/$defs/" ++ name

/-- `facets::sql`. -/
def sql (query : Text) : Facet :=
  stamp "sql" (specUrl "1-0-1" "SQLJobFacet") [("query", .str query), ("dialect", text "duckdb")]

/-- `facets::dataset_version`. -/
def datasetVersion (snapshotId : ℤ) : Facet :=
  stamp "version" (specUrl "1-0-1" "DatasetVersionDatasetFacet") [("datasetVersion", text (toString snapshotId))]

/-- `facets::schema`. -/
def schema (fields : List (Text × Text)) : Facet :=
  stamp "schema" (specUrl "1-1-1" "SchemaDatasetFacet")
    [("fields", .arr (fields.map fun f => .obj (object [("name", .str f.1), ("type", .str f.2)])))]

/-- `facets::error_message`. -/
def errorMessage (message : Text) : Facet :=
  stamp "errorMessage" (specUrl "1-0-1" "ErrorMessageRunFacet")
    [("message", .str message), ("programmingLanguage", text "RUST")]

/-- `facets::job_type`. -/
def jobType (jobType : String) : Facet :=
  stamp "jobType" (specUrl "2-0-3" "JobTypeJobFacet")
    [("processingType", text "BATCH"), ("integration", text "LATIQ"), ("jobType", text jobType)]

/-- `facets::processing_engine`. -/
def processingEngine (duckdbVersion : Text) : Facet :=
  stamp "processing_engine" (specUrl "1-1-1" "ProcessingEngineRunFacet")
    [("name", text "duckdb"), ("version", .str duckdbVersion), ("openlineageAdapterVersion", text adapterVersion)]

/-- An optional text. -/
def nullable (s : Option Text) : Value := (s.map Value.str).getD .null

/-- `facets::identity`. The agent id is claimed, and never verified. -/
def identity (verified : Bool) (subject : Text) (issuer agentId : Option Text) : Facet :=
  stamp "latiq_identity" (latiqUrl "LatiqIdentityFacet" "1-0-0")
    [("verified", .bool verified), ("subject", if verified then .str subject else .null), ("issuer", nullable issuer),
      ("agentId", nullable agentId), ("agentIdVerified", .bool false)]

/-- `facets::pond`. -/
def pond (pondId pondName nodeId : Text) : Facet :=
  stamp "latiq_pond" (latiqUrl "LatiqPondFacet" "1-0-0")
    [("pondId", .str pondId), ("pondName", .str pondName), ("nodeId", .str nodeId)]

end Facet

/-- `DurationMeaning`. -/
inductive DurationMeaning where
  | completion
  | establishment
  deriving DecidableEq, Repr

def DurationMeaning.asStr : DurationMeaning → String
  | completion => "completion"
  | establishment => "establishment"

/-- `Outcome`. -/
inductive Outcome where
  | ok
  | error
  | cancelled
  deriving DecidableEq, Repr

def Outcome.asStr : Outcome → String
  | ok => "ok"
  | error => "error"
  | cancelled => "cancelled"

/-- `facets::query`. -/
def Facet.query (op : String) (outcome : Outcome) (durationMs : ℕ) (meaning : DurationMeaning) (traceId : Option Text) :
    Facet :=
  stamp "latiq_query" (latiqUrl "LatiqQueryFacet" "1-0-0")
    [("op", text op), ("outcome", text outcome.asStr), ("durationMs", .int durationMs),
      ("durationMeaning", text meaning.asStr), ("traceId", nullable traceId)]

/-! ### Names -/

/-- `dataset_namespace`. -/
def datasetNamespace (pondId : Text) : Text := "ducklake://".toList ++ pondId

/-- `strip_prefix`, twice: the pond's name and a dot. -/
def stripPond (pondName target : Text) : Text :=
  if pondName ++ ['.'] <+: target then target.drop (pondName.length + 1) else target

/-- `job_name`. -/
def jobName (pondName : Text) (op : String) : Option Text → Text
  | some target => pondName ++ ['.'] ++ op.toList ++ ['.'] ++ stripPond pondName target
  | none => pondName ++ ['.'] ++ op.toList

/-- Two targets give one job exactly when they are the same behind the pond's name. -/
theorem jobName_eq_iff (pondName : Text) (op : String) (s t : Text) :
    jobName pondName op (some s) = jobName pondName op (some t) ↔ stripPond pondName s = stripPond pondName t := by
  unfold jobName
  exact List.append_right_inj _

end Latiq.Lineage
