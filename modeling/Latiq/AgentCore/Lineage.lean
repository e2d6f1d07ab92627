import Latiq.AgentCore.Redact
import Latiq.Common.Error
import Latiq.Common.Meta
import Latiq.EngineDuckdb.Exec
import Latiq.Lineage.Event

/-!
# What an operation records

Every operation that runs a caller's SQL leaves an access record, and, on a pond that opted in, a `START` and a terminal
lineage event, both built when the operation is over.

* `AccessRecord`, `accessRecord` — the record on the `latiq::access` target.
* `QueryRecord`, `record` — the two events of an operation.

## What is proved

* `record_pair` — the two events are a `START` and a terminal event of one run and one job.
* `record_congr` — all that they take from the SQL is what redaction leaves of it.
-/

namespace Latiq.AgentCore

open RustStr (Text)
open Serde (Value)
open Latiq.Common
open Latiq.EngineDuckdb (Identity)
open Latiq.Lineage

/-! ### The access record -/

/-- The fields of a record on the access target. -/
structure AccessRecord where
  agent : Text
  subject : Text
  issuer : Text
  verified : Bool
  op : String
  pond : Text
  traceId : Text
  durationMs : ℕ
  summary : Text
  /-- `ok` or `error`. -/
  landed : Bool
  deriving DecidableEq, Repr

/-- `access::record`, with the ambient trace id. -/
def accessRecord (traceId : Option Text) (identity : Identity) (op : String) (pond summary : Option Text) (durationMs : ℕ)
    (landed : Bool) : AccessRecord where
  agent := identity.agentId
  subject := identity.subject
  issuer := identity.issuer
  verified := identity.verified
  op
  pond := pond.getD "-".toList
  traceId := traceId.getD "-".toList
  durationMs
  summary := summary.getD []
  landed

/-! ### The lineage events -/

/-- What is read of a pond's record here. -/
structure RecordedPond where
  pondId : Text
  name : Text
  lineage : Bool
  deriving DecidableEq, Repr

/-- `QueryRecord`. -/
structure QueryRecord where
  identity : Identity
  info : RecordedPond
  op : String
  sql : Text
  durationMs : ℕ
  meaning : DurationMeaning
  error : Option ErrorEnvelope
  result : Option QueryMeta
  engineVersion : Text

/-- What a record takes from around it: a new run id, the ambient trace id, the time that is `millis` ago, and the time. -/
structure Surroundings where
  runId : Text
  traceId : Option Text
  millisAgo : ℕ → Text
  now : Text

/-- One dataset of an event. -/
def toDataset (info : RecordedPond) (fallback : Option ℤ) (r : DatasetRef) : Dataset :=
  let ds : Dataset := ⟨r.ns.getD (datasetNamespace info.pondId), r.name, []⟩
  let ds := match r.version.or fallback with
    | some id => ds.with (Facet.datasetVersion id)
    | none => ds
  if r.fields.isEmpty then ds else ds.with (Facet.schema (r.fields.map fun f => (f.name, f.typeName)))

/-- `terminal`: a cancelled query aborts. -/
def terminal : Option ErrorEnvelope → EventType × Outcome
  | none => (.complete, .ok)
  | some e =>
    match e.kind with
    | .queryCancelled | .queryTimeout => (.abort, .cancelled)
    | _ => (.fail, .error)

/-- `non_empty`. -/
def nonEmptyText (s : Text) : Option Text := if s.isEmpty then none else some s

/-- The job of a record. -/
def jobOf (nodeId : Text) (r : QueryRecord) (target : Option Text) : Job :=
  ((((⟨jobNamespace.toList, jobName r.info.name r.op target, []⟩ : Job).with (Facet.sql (redactSql r.sql))).with
    (Facet.jobType "QUERY")).with (Facet.pond r.info.pondId r.info.name nodeId))

/-- The run that both events share. -/
def baseRun (around : Surroundings) (r : QueryRecord) : Run :=
  ((⟨around.runId, []⟩ : Run).with (Facet.identity r.identity.verified r.identity.subject
    (nonEmptyText r.identity.issuer) (some r.identity.agentId))).with (Facet.processingEngine r.engineVersion)

/-- The run of the terminal event. -/
def terminalRun (around : Surroundings) (r : QueryRecord) : Run :=
  let run := (baseRun around r).with
    (Facet.query r.op (terminal r.error).2 r.durationMs r.meaning around.traceId)
  match r.error with
  | some e => run.with (Facet.errorMessage e.message)
  | none => run

/-- `lineage::record`: the `START` and the terminal event, in the order they are buffered. -/
def record (around : Surroundings) (nodeId : Text) (r : QueryRecord) : List RunEvent :=
  let inputs := (r.result.map QueryMeta.inputs).getD []
  let outputs := (r.result.map QueryMeta.outputs).getD []
  let produced := r.result.bind QueryMeta.snapshotId
  let inputDatasets := inputs.map (toDataset r.info none)
  let outputDatasets := outputs.map (toDataset r.info produced)
  let job := jobOf nodeId r ((outputs.head?.or inputs.head?).map DatasetRef.name)
  [⟨around.millisAgo r.durationMs, .start, baseRun around r, job, inputDatasets, []⟩,
    ⟨around.now, (terminal r.error).1, terminalRun around r, job, inputDatasets, outputDatasets⟩]

/-- `emit_lineage`, up to the writer: nothing for a pond that did not opt in. -/
def emitLineage (around : Surroundings) (nodeId : Text) (r : QueryRecord) : List RunEvent :=
  if r.info.lineage then record around nodeId r else []

@[simp] theorem runId_with (r : Run) (f : Facet) : (r.with f).runId = r.runId := rfl

theorem terminal_isTerminal (error : Option ErrorEnvelope) : (terminal error).1.isTerminal = true := by
  cases error with
  | none => rfl
  | some e =>
    unfold terminal
    dsimp only
    split <;> rfl

/-- **One pair**: an operation records a `START` and one terminal event of the same run and job. -/
theorem record_pair (around : Surroundings) (nodeId : Text) (r : QueryRecord) :
    ∃ s e, record around nodeId r = [s, e] ∧ s.eventType = .start ∧ e.eventType.isTerminal = true ∧
      s.run.runId = around.runId ∧ e.run.runId = around.runId ∧ s.job = e.job := by
  refine ⟨_, _, rfl, rfl, terminal_isTerminal r.error, rfl, ?_, rfl⟩
  unfold terminalRun
  cases r.error <;> rfl

/-- **What is taken from the SQL** is what redaction leaves of it. -/
theorem record_congr {around : Surroundings} {nodeId : Text} {r : QueryRecord} {sql : Text}
    (h : redactSql r.sql = redactSql sql) : record around nodeId r = record around nodeId { r with sql } := by
  have hjob : ∀ target, jobOf nodeId r target = jobOf nodeId { r with sql } target := by
    intro target
    unfold jobOf
    rw [h]
  unfold record
  simp only [hjob]
  rfl

end Latiq.AgentCore
