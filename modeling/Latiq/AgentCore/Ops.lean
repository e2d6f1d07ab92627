import Latiq.AgentCore.DropPond
import Latiq.AgentCore.Error
import Latiq.AgentCore.Lineage
import Latiq.AgentCore.Placement

/-!
# The operations that run SQL

The operations of the agent core that take a caller's SQL, with what each of them records. An operation looks its pond up,
is placed, runs the statement on the blocking pool, and then writes its access record and its lineage: two steps that
nothing suspends, behind awaits at each of which its future can be dropped.

## The model

* `Trail` — what the nodes of a deployment have recorded, and what their engines have done.
* `runQuery`, `readArrow`, `readCollected`, `explainQuery`, `catalogPull` — the operations on the node that runs them.
* `SqlCall` — an operation with how each of its steps turns out, on its owner or handed on, and `SqlCall.perform`.
* `loadDataset` — one `write_query` for each table, and a record of its own.

## What is proved

* `run_perform_eq` — an operation on its node is its lookup, its placement and its `SqlRun.ending`.
* `SqlCall.here_leaves`, `SqlCall.forwarded_leaves` — what is left of a call.
-/

namespace Latiq.AgentCore

open RustStr (Text)
open Unwind
open Latiq.Common
open Latiq.EngineDuckdb (EngineError Identity)
open Latiq.Lineage

/-! ### What is left of an operation -/

/-- The access records and the lineage events of a deployment, the statements that its engines were given, and the
snapshots that these published. -/
structure Trail where
  access : List AccessRecord
  events : List RunEvent
  executed : ℕ
  published : ℕ

namespace Trail

def empty : Trail := ⟨[], [], 0, 0⟩

/-- One trail behind another. -/
def append (t u : Trail) : Trail :=
  ⟨t.access ++ u.access, t.events ++ u.events, t.executed + u.executed, t.published + u.published⟩

end Trail

/-- The timeout in effect for a call, and the limits of the node. -/
structure Limits where
  effectiveMs : ℕ
  maxMs : ℕ
  inlineRowCap : ℕ
  deriving DecidableEq, Repr

/-- A node, and who calls it. -/
structure Site where
  identity : Identity
  servingName : Text
  engineVersion : Text
  limits : Limits

/-- The ids and the times that a record takes from around it. -/
structure Moment extends Surroundings where
  durationMs : ℕ

/-- `audit`. -/
def audit (site : Site) (m : Moment) (op : String) (pond summary : Option Text) (durationMs : ℕ) (landed : Bool) :
    Act Trail ErrorEnvelope Unit :=
  .modify fun t =>
    { t with access := t.access ++ [accessRecord m.traceId site.identity op pond summary durationMs landed] }

/-- `emit_lineage`, with a writer that can be had. -/
def emit (site : Site) (m : Moment) (r : QueryRecord) : Act Trail ErrorEnvelope Unit :=
  .modify fun t => { t with events := t.events ++ emitLineage m.toSurroundings site.servingName r }

/-- The engine is given a statement, which publishes so many snapshots. -/
def giveToEngine (published : ℕ) : Act Trail ErrorEnvelope Unit :=
  .modify fun t => { t with executed := t.executed + 1, published := t.published + published }

/-! ### What an operation waits for -/

/-- How an await ends: with a value, or the future is dropped there. -/
inductive Awaited (α : Type) where
  | done (a : α)
  | dropped

/-- An error of the engine, which makes no `Timeout`. -/
structure Raised where
  error : EngineError
  made : error ≠ .timeout

/-- How the await of a task on the blocking pool ends: a `JoinError`, in its words, or what the engine returned. -/
abbrev Task (α : Type) : Type := Awaited (Except Text (Except Raised α))

/-- `control.pond_info`. -/
abbrev PondLookup : Type := Awaited (Except ErrorEnvelope RecordedPond)

/-- What `read_query` or `write_query` of the engine returns. -/
structure Answered where
  rows : ℕ
  meta_ : QueryMeta

/-- How the engine's part of `run_query` turns out; `planned` is what `plan_datasets` gives for a write that failed. -/
structure QueryRun where
  task : Task Answered
  expired : Bool
  planned : Option QueryMeta
  published : ℕ

/-- What the caller of a streamed read waits for: the schema, an error of the engine, or a sender that is gone. -/
structure StreamRun where
  schema : Awaited (Option (Except Raised Unit))
  expired : Bool
  published : ℕ

/-- How `collect_stream` fails. -/
inductive CollectError where
  /-- An error in the stream, through the deadline. -/
  | raised (e : Raised) (expired : Bool)
  /-- `append_batch_rows`. -/
  | unreadable (message : Text)
  | overCap

/-- How the engine's part of `explain_query` turns out. -/
structure ExplainRun where
  task : Task Unit
  published : ℕ

/-- How the engine's part of `catalog_pull` turns out, with the lookup of the catalog before it. -/
structure PullRun where
  catalog : Awaited (Except ErrorEnvelope Unit)
  task : Task QueryMeta
  published : ℕ

/-! ### The operations on the node that runs them -/

/-- `pond_info_audited`: a lookup that fails is on the access trail. -/
def lookUp (site : Site) (m : Moment) (op : String) (pondRef : Text) : PondLookup → Act Trail ErrorEnvelope RecordedPond
  | .done (.ok info) => pure info
  | .done (.error e) => do
    audit site m op (some pondRef) none 0 false
    Act.fail e
  | .dropped => Act.unwind

/-- `route`, on a node that does not hand the operation on. -/
def route (site : Site) (m : Moment) (op : String) (info : RecordedPond) (owner : Bool) : Act Trail ErrorEnvelope Unit :=
  if owner then pure ()
  else do
    audit site m op (some info.pondId) none 0 false
    Act.fail (pondUnavailable info.name)

/-- An engine's error, through the deadline of a call. -/
def Site.classify (site : Site) (expired : Bool) (e : Raised) : ErrorEnvelope :=
  Deadline.classify ⟨site.limits.effectiveMs, site.limits.maxMs, expired⟩ e.error

/-- A `JoinError`. -/
def joinError (what : Text) : ErrorEnvelope := internalError ("join: ".toList ++ what)

section

variable (site : Site) (m : Moment) (pondRef sql : Text) (lookup : PondLookup) (owner : Bool)
  (prep : Except ErrorEnvelope Unit)

/-- `parse_id` and `ensure_pond`. -/
def prepare : Act Trail ErrorEnvelope Unit := fun t => (.ofExcept prep, t)

/-- `run_query_local`, without what it leaves in `planned`. -/
def runQueryLocal (write : Bool) (run : QueryRun) : Act Trail ErrorEnvelope QueryMeta := do
  prepare prep
  giveToEngine run.published
  match run.task with
  | .dropped => Act.unwind
  | .done (.error what) => Act.fail (joinError what)
  | .done (.ok (.error e)) => Act.fail (site.classify run.expired e)
  | .done (.ok (.ok answered)) =>
    if !write ∧ site.limits.inlineRowCap < answered.rows then
      Act.fail (resultCapExceeded answered.rows site.limits.inlineRowCap)
    else pure answered.meta_

/-- What `run_query_local` leaves in `planned`: the plan of a write that the engine failed. -/
def QueryRun.plannedOf (write : Bool) (run : QueryRun) : Option QueryMeta :=
  match prep, run.task with
  | .ok _, .done (.ok (.error _)) => if write then run.planned else none
  | _, _ => none

/-- `run_query`. -/
def runQuery (write : Bool) (run : QueryRun) : Act Trail ErrorEnvelope Unit := do
  let op := if write then "write_query" else "read_query"
  let info ← lookUp site m op pondRef lookup
  route site m op info owner
  match ← (Act.attempt (runQueryLocal site prep write run) : Act Trail ErrorEnvelope (Except ErrorEnvelope QueryMeta)) with
  | .ok meta_ => do
    audit site m op (some info.pondId) (some (redactSql sql)) m.durationMs true
    emit site m ⟨site.identity, info, op, sql, m.durationMs, .completion, none, some meta_, site.engineVersion⟩
  | .error e => do
    audit site m op (some info.pondId) (some (redactSql sql)) m.durationMs false
    emit site m ⟨site.identity, info, op, sql, m.durationMs, .completion, some e, run.plannedOf prep write,
      site.engineVersion⟩
    Act.fail e

/-- `read_arrow_local`, up to the schema. -/
def readArrowLocal (run : StreamRun) : Act Trail ErrorEnvelope Unit := do
  prepare prep
  giveToEngine run.published
  match run.schema with
  | .dropped => Act.unwind
  | .done none => Act.fail (internalError "arrow read produced no schema".toList)
  | .done (some (.error e)) => Act.fail (site.classify run.expired e)
  | .done (some (.ok ())) => pure ()

/-- `read_arrow_with`: what it records is that the stream is there. -/
def readArrow (run : StreamRun) : Act Trail ErrorEnvelope Unit := do
  let info ← lookUp site m "read_arrow" pondRef lookup
  route site m "read_arrow" info owner
  match ← (Act.attempt (readArrowLocal site prep run) : Act Trail ErrorEnvelope (Except ErrorEnvelope Unit)) with
  | .ok () => do
    audit site m "read_arrow" (some info.pondId) (some (redactSql sql)) m.durationMs true
    emit site m ⟨site.identity, info, "read_arrow", sql, m.durationMs, .establishment, none, none, site.engineVersion⟩
  | .error e => do
    audit site m "read_arrow" (some info.pondId) (some (redactSql sql)) m.durationMs false
    emit site m ⟨site.identity, info, "read_arrow", sql, m.durationMs, .establishment, some e, none, site.engineVersion⟩
    Act.fail e

/-- The error of `collect_stream`. -/
def CollectError.envelope : CollectError → ErrorEnvelope
  | .raised e expired => site.classify expired e
  | .unreadable message => internalError message
  | .overCap => resultCapExceededUnknown site.limits.inlineRowCap

/-- `read_arrow_local` and `collect_stream`. -/
def readCollectedLocal (run : StreamRun) (collected : Awaited (Except CollectError QueryMeta)) :
    Act Trail ErrorEnvelope QueryMeta := do
  readArrowLocal site prep run
  match collected with
  | .dropped => Act.unwind
  | .done (.error e) => Act.fail (e.envelope site)
  | .done (.ok meta_) => pure meta_

/-- `read_collected_with`, which is recorded as the `read_query` that it is. -/
def readCollected (run : StreamRun) (collected : Awaited (Except CollectError QueryMeta)) :
    Act Trail ErrorEnvelope Unit := do
  let info ← lookUp site m "read_query" pondRef lookup
  route site m "read_query" info owner
  match ← (Act.attempt (readCollectedLocal site prep run collected) :
      Act Trail ErrorEnvelope (Except ErrorEnvelope QueryMeta)) with
  | .ok meta_ => do
    audit site m "read_query" (some info.pondId) (some (redactSql sql)) m.durationMs true
    emit site m ⟨site.identity, info, "read_query", sql, m.durationMs, .completion, none, some meta_, site.engineVersion⟩
  | .error e => do
    audit site m "read_query" (some info.pondId) (some (redactSql sql)) m.durationMs false
    emit site m ⟨site.identity, info, "read_query", sql, m.durationMs, .completion, some e, none, site.engineVersion⟩
    Act.fail e

/-- `explain_query_local`. -/
def explainQueryLocal (run : ExplainRun) : Act Trail ErrorEnvelope Unit := do
  prepare prep
  giveToEngine run.published
  match run.task with
  | .dropped => Act.unwind
  | .done (.error what) => Act.fail (joinError what)
  | .done (.ok (.error e)) => Act.fail (agentError e.error)
  | .done (.ok (.ok ())) => pure ()

/-- `explain_query`: the statement is planned and thrown away, and there is no lineage of it. -/
def explainQuery (run : ExplainRun) : Act Trail ErrorEnvelope Unit := do
  let info ← lookUp site m "explain_query" pondRef lookup
  route site m "explain_query" info owner
  match ← (Act.attempt (explainQueryLocal prep run) : Act Trail ErrorEnvelope (Except ErrorEnvelope Unit)) with
  | .ok () => audit site m "explain_query" (some info.pondId) (some (redactSql sql)) m.durationMs true
  | .error e => do
    audit site m "explain_query" (some info.pondId) (some (redactSql sql)) m.durationMs false
    Act.fail e

/-- `control.get_catalog`. -/
def getCatalog (reply : Awaited (Except ErrorEnvelope Unit)) : Act Trail ErrorEnvelope Unit := fun t =>
  match reply with
  | .dropped => (.unwound, t)
  | .done found => (.ofExcept found, t)

/-- `catalog_pull_local`: the catalog is looked up before the pond is prepared. -/
def catalogPullLocal (run : PullRun) : Act Trail ErrorEnvelope QueryMeta := do
  getCatalog run.catalog
  prepare prep
  giveToEngine run.published
  match run.task with
  | .dropped => Act.unwind
  | .done (.error what) => Act.fail (joinError what)
  | .done (.ok (.error e)) => Act.fail (agentError e.error)
  | .done (.ok (.ok meta_)) => pure meta_

/-- `catalog_pull`: its record has the caller's reference, and the query as it was sent. -/
def catalogPull (run : PullRun) : Act Trail ErrorEnvelope Unit := do
  let info ← lookUp site m "catalog_pull" pondRef lookup
  route site m "catalog_pull" info owner
  match ← (Act.attempt (catalogPullLocal prep run) : Act Trail ErrorEnvelope (Except ErrorEnvelope QueryMeta)) with
  | .ok meta_ => do
    audit site m "catalog_pull" (some pondRef) (some sql) m.durationMs true
    emit site m ⟨site.identity, info, "catalog_pull", sql, m.durationMs, .completion, none, some meta_,
      site.engineVersion⟩
  | .error e => do
    audit site m "catalog_pull" (some pondRef) (some sql) m.durationMs false
    emit site m ⟨site.identity, info, "catalog_pull", sql, m.durationMs, .completion, some e, none, site.engineVersion⟩
    Act.fail e

end

/-! ### Calls -/

/-- The operations that run a caller's SQL. -/
inductive SqlOp where
  | readQuery
  | writeQuery
  | readArrow
  | readCollected
  | explainQuery
  | catalogPull
  deriving DecidableEq, Repr

namespace SqlOp

/-- Among the operations on a pond. -/
def toOp : SqlOp → Op
  | readQuery => .readQuery
  | writeQuery => .writeQuery
  | readArrow => .readArrow
  | readCollected => .readCollected
  | explainQuery => .explainQuery
  | catalogPull => .catalogPull

/-- What the peer runs for an operation that is handed on. -/
def forwarded : SqlOp → SqlOp
  | readQuery => readCollected
  | readCollected => readArrow
  | op => op

@[simp] theorem toOp_forwarded (op : SqlOp) : op.forwarded.toOp = op.toOp.forwarded := by
  cases op <;> rfl

/-- The name that an operation is recorded under. -/
def name : SqlOp → String
  | readQuery | readCollected => "read_query"
  | writeQuery => "write_query"
  | readArrow => "read_arrow"
  | explainQuery => "explain_query"
  | catalogPull => "catalog_pull"

end SqlOp

/-- How the part of an operation turns out that runs on the blocking pool. -/
inductive SqlRun : SqlOp → Type where
  | readQuery (run : QueryRun) : SqlRun .readQuery
  | writeQuery (run : QueryRun) : SqlRun .writeQuery
  | readArrow (run : StreamRun) : SqlRun .readArrow
  | readCollected (run : StreamRun) (collected : Awaited (Except CollectError QueryMeta)) : SqlRun .readCollected
  | explainQuery (run : ExplainRun) : SqlRun .explainQuery
  | catalogPull (run : PullRun) : SqlRun .catalogPull

/-- The operation on the node that runs it. -/
def SqlRun.perform (site : Site) (m : Moment) (pondRef sql : Text) (lookup : PondLookup) (owner : Bool)
    (prep : Except ErrorEnvelope Unit) : {op : SqlOp} → SqlRun op → Act Trail ErrorEnvelope Unit
  | _, .readQuery run => runQuery site m pondRef sql lookup owner prep false run
  | _, .writeQuery run => runQuery site m pondRef sql lookup owner prep true run
  | _, .readArrow run => Latiq.AgentCore.readArrow site m pondRef sql lookup owner prep run
  | _, .readCollected run collected => Latiq.AgentCore.readCollected site m pondRef sql lookup owner prep run collected
  | _, .explainQuery run => Latiq.AgentCore.explainQuery site m pondRef sql lookup owner prep run
  | _, .catalogPull run => Latiq.AgentCore.catalogPull site m pondRef sql lookup owner prep run

/-- How an operation ends on the node that runs it. -/
inductive Ending where
  /-- Its future is dropped before it has recorded anything. -/
  | dropped
  /-- It fails before the engine has the statement. -/
  | refused (e : ErrorEnvelope)
  /-- It fails behind that, with what the plan of the statement named. -/
  | failed (e : ErrorEnvelope) (planned : Option QueryMeta)
  | ok (result : Option QueryMeta)

/-- What the caller gets. -/
def Ending.ended : Ending → Ended ErrorEnvelope Unit
  | .dropped => .unwound
  | .refused e | .failed e _ => .err e
  | .ok _ => .ok ()

/-- The error that is recorded, and the meta. -/
def Ending.recorded : Ending → Option (Option ErrorEnvelope × Option QueryMeta)
  | .dropped => none
  | .refused e => some (some e, none)
  | .failed e planned => some (some e, planned)
  | .ok result => some (none, result)

section

variable (site : Site) (prep : Except ErrorEnvelope Unit)

/-- How the await of a task ends the operation. -/
def Awaited.ending {α : Type} (classify : Raised → ErrorEnvelope) (planned : Option QueryMeta) (answered : α → Ending) :
    Task α → Ending
  | .dropped => .dropped
  | .done (.error what) => .failed (joinError what) none
  | .done (.ok (.error e)) => .failed (classify e) planned
  | .done (.ok (.ok a)) => answered a

/-- How the await of a schema ends the operation. -/
def StreamRun.ending (run : StreamRun) (established : Ending) : Ending :=
  match run.schema with
  | .dropped => .dropped
  | .done none => .failed (internalError "arrow read produced no schema".toList) none
  | .done (some (.error e)) => .failed (site.classify run.expired e) none
  | .done (some (.ok ())) => established

/-- How a collection ends the operation. -/
def collectedEnding : Awaited (Except CollectError QueryMeta) → Ending
  | .dropped => .dropped
  | .done (.error e) => .failed (e.envelope site) none
  | .done (.ok meta_) => .ok (some meta_)

/-- How an operation ends once its pond is prepared and its catalog found. -/
def SqlRun.engineEnding : {op : SqlOp} → SqlRun op → Ending
  | _, .readQuery run =>
    run.task.ending (site.classify run.expired) none fun answered =>
      if site.limits.inlineRowCap < answered.rows then
        .failed (resultCapExceeded answered.rows site.limits.inlineRowCap) none
      else .ok (some answered.meta_)
  | _, .writeQuery run => run.task.ending (site.classify run.expired) run.planned fun answered => .ok (some answered.meta_)
  | _, .readArrow run => run.ending site (.ok none)
  | _, .readCollected run collected => run.ending site (collectedEnding site collected)
  | _, .explainQuery run => run.task.ending (fun e => agentError e.error) none fun _ => .ok none
  | _, .catalogPull run => run.task.ending (fun e => agentError e.error) none fun meta_ => .ok (some meta_)

/-- The lookup of the catalog, which is there for a pull only. -/
def SqlRun.catalog : {op : SqlOp} → SqlRun op → Awaited (Except ErrorEnvelope Unit)
  | _, .catalogPull run => run.catalog
  | _, _ => .done (.ok ())

/-- The snapshots that the engine publishes if it gets the statement. -/
def SqlRun.publishes : {op : SqlOp} → SqlRun op → ℕ
  | _, .readQuery run | _, .writeQuery run => run.published
  | _, .readArrow run | _, .readCollected run _ => run.published
  | _, .explainQuery run => run.published
  | _, .catalogPull run => run.published

/-- How an operation ends that is placed on its node, and the snapshots that the engine publishes if it gets the
statement. -/
def SqlRun.ending {op : SqlOp} (run : SqlRun op) : Ending × Option ℕ :=
  match run.catalog, prep with
  | .dropped, _ => (.dropped, none)
  | .done (.error e), _ => (.refused e, none)
  | .done (.ok ()), .error e => (.refused e, none)
  | .done (.ok ()), .ok () => (run.engineEnding site, some run.publishes)

end

/-- The trail of an operation that is refused before it runs. -/
def rejection (site : Site) (m : Moment) (op : String) (pond : Text) : Trail :=
  ⟨[accessRecord m.traceId site.identity op (some pond) none 0 false], [], 0, 0⟩

namespace SqlOp

/-- What the access record has for its pond and its summary. -/
def summary (op : SqlOp) (pondRef sql : Text) (info : RecordedPond) : Text × Text :=
  if op = catalogPull then (pondRef, sql) else (info.pondId, redactSql sql)

/-- What the duration of an operation means. -/
def meaning (op : SqlOp) : DurationMeaning := if op = readArrow then .establishment else .completion

/-- The record of an operation, for its lineage. -/
def queryRecord (op : SqlOp) (site : Site) (m : Moment) (sql : Text) (info : RecordedPond) (error : Option ErrorEnvelope)
    (result : Option QueryMeta) : QueryRecord :=
  ⟨site.identity, info, op.name, sql, m.durationMs, op.meaning, error, result, site.engineVersion⟩

/-- The lineage of an operation: there is none of an `explain_query`. -/
def lineage (op : SqlOp) (site : Site) (m : Moment) (sql : Text) (info : RecordedPond) (error : Option ErrorEnvelope)
    (result : Option QueryMeta) : List RunEvent :=
  if op = explainQuery then []
  else emitLineage m.toSurroundings site.servingName (op.queryRecord site m sql info error result)

/-- What an operation records at its end. -/
def records (op : SqlOp) (site : Site) (m : Moment) (pondRef sql : Text) (info : RecordedPond) :
    Option (Option ErrorEnvelope × Option QueryMeta) → List AccessRecord × List RunEvent
  | none => ([], [])
  | some (error, result) =>
    ([accessRecord m.traceId site.identity op.name (some (op.summary pondRef sql info).1)
        (some (op.summary pondRef sql info).2) m.durationMs error.isNone],
      op.lineage site m sql info error result)

end SqlOp

/-- The trail of an operation that is placed on its node. -/
def SqlRun.trail {op : SqlOp} (site : Site) (m : Moment) (pondRef sql : Text) (info : RecordedPond)
    (prep : Except ErrorEnvelope Unit) (run : SqlRun op) : Trail :=
  let recorded := op.records site m pondRef sql info (run.ending site prep).1.recorded
  ⟨recorded.1, recorded.2, (run.ending site prep).2.elim 0 fun _ => 1, (run.ending site prep).2.getD 0⟩

/-- A call of an operation, with how its steps turn out: on a node that does not hand it on, or with what comes of it
behind the hop, and what the node says of a call that got lost there. -/
inductive SqlCall : SqlOp → Type where
  | here {op : SqlOp} (site : Site) (m : Moment) (lookup : PondLookup) (owner : Bool) (prep : Except ErrorEnvelope Unit)
      (run : SqlRun op) : SqlCall op
  | forwarded {op : SqlOp} (site : Site) (m : Moment) (lookup : PondLookup) (hop : Hop) (unreachable : ErrorEnvelope)
      (peer : SqlCall op.forwarded) : SqlCall op

/-- Whether a call gets to the peer. -/
def Hop.reaches : Hop → Bool
  | .undelivered => false
  | .relayed | .lost => true
  | .abandoned taken => taken

/-- A call over a hop. -/
def cross (hop : Hop) (unreachable : ErrorEnvelope) (peer : Act Trail ErrorEnvelope Unit) :
    Act Trail ErrorEnvelope Unit := fun t =>
  match hop with
  | .undelivered => (.err unreachable, t)
  | .relayed => peer t
  | .lost => (.err unreachable, (peer t).2)
  | .abandoned taken => (.unwound, if taken then (peer t).2 else t)

/-- The operation. A node that hands it on records nothing behind the hop, also where it collects the stream that it is
sent. -/
def SqlCall.perform {op : SqlOp} (pondRef sql : Text) : SqlCall op → Act Trail ErrorEnvelope Unit
  | .here site m lookup owner prep run => run.perform site m pondRef sql lookup owner prep
  | .forwarded site m lookup hop unreachable peer => do
    let _ ← lookUp site m op.name pondRef lookup
    cross hop unreachable (peer.perform pondRef sql)

/-- What an operation leaves. -/
def SqlCall.leaves {op : SqlOp} (c : SqlCall op) (pondRef sql : Text) : Trail := (c.perform pondRef sql .empty).2

/-! ### What a call leaves -/

@[simp] theorem Trail.append_empty (t : Trail) : t.append .empty = t := by
  simp [Trail.append, Trail.empty]

@[simp] theorem Trail.empty_append (t : Trail) : Trail.empty.append t = t := by
  simp [Trail.append, Trail.empty]

theorem Trail.append_assoc (t u v : Trail) : (t.append u).append v = t.append (u.append v) := by
  simp [Trail.append, Nat.add_assoc]

section

attribute [local simp] lookUp route prepare giveToEngine audit emit Act.bind_apply Act.attempt SqlRun.perform SqlRun.ending
  SqlRun.engineEnding SqlRun.catalog SqlRun.publishes SqlRun.trail Awaited.ending Ending.recorded Ending.ended
  Ended.ofExcept SqlOp.records SqlOp.summary SqlOp.lineage SqlOp.queryRecord SqlOp.name SqlOp.meaning Trail.append

variable (site : Site) (m : Moment) (pondRef sql : Text) (info : RecordedPond) (prep : Except ErrorEnvelope Unit) (t : Trail)

theorem runQuery_eq (write : Bool) (run : QueryRun) :
    runQuery site m pondRef sql (.done (.ok info)) true prep write run t =
      if write then
        (((SqlRun.writeQuery run).ending site prep).1.ended,
          t.append ((SqlRun.writeQuery run).trail site m pondRef sql info prep))
      else
        (((SqlRun.readQuery run).ending site prep).1.ended,
          t.append ((SqlRun.readQuery run).trail site m pondRef sql info prep)) := by
  obtain ⟨task, expired, planned, published⟩ := run
  cases prep with
  | error e => cases write <;> simp [runQuery, runQueryLocal, QueryRun.plannedOf]
  | ok u =>
    obtain ((what | (e | answered)) | _) := task
    · cases write <;> simp [runQuery, runQueryLocal, QueryRun.plannedOf]
    · cases write <;> simp [runQuery, runQueryLocal, QueryRun.plannedOf]
    · cases write
      · by_cases hcap : site.limits.inlineRowCap < answered.rows
        · simp [runQuery, runQueryLocal, QueryRun.plannedOf, hcap]
        · simp [runQuery, runQueryLocal, hcap]
      · simp [runQuery, runQueryLocal]
    · cases write <;> simp [runQuery, runQueryLocal]

theorem readArrow_eq (run : StreamRun) :
    readArrow site m pondRef sql (.done (.ok info)) true prep run t =
      (((SqlRun.readArrow run).ending site prep).1.ended,
        t.append ((SqlRun.readArrow run).trail site m pondRef sql info prep)) := by
  obtain ⟨schema, expired, published⟩ := run
  cases prep with
  | error e => simp [readArrow, readArrowLocal]
  | ok u => obtain ((_ | (e | _)) | _) := schema <;> simp [readArrow, readArrowLocal, StreamRun.ending]

theorem readCollected_eq (run : StreamRun) (collected : Awaited (Except CollectError QueryMeta)) :
    readCollected site m pondRef sql (.done (.ok info)) true prep run collected t =
      (((SqlRun.readCollected run collected).ending site prep).1.ended,
        t.append ((SqlRun.readCollected run collected).trail site m pondRef sql info prep)) := by
  obtain ⟨schema, expired, published⟩ := run
  cases prep with
  | error e => simp [readCollected, readCollectedLocal, readArrowLocal]
  | ok u =>
    obtain ((_ | (e | _)) | _) := schema
    · simp [readCollected, readCollectedLocal, readArrowLocal, StreamRun.ending]
    · simp [readCollected, readCollectedLocal, readArrowLocal, StreamRun.ending]
    · obtain ((e | meta_) | _) := collected <;>
        simp [readCollected, readCollectedLocal, readArrowLocal, StreamRun.ending, collectedEnding]
    · simp [readCollected, readCollectedLocal, readArrowLocal, StreamRun.ending]

theorem explainQuery_eq (run : ExplainRun) :
    explainQuery site m pondRef sql (.done (.ok info)) true prep run t =
      (((SqlRun.explainQuery run).ending site prep).1.ended,
        t.append ((SqlRun.explainQuery run).trail site m pondRef sql info prep)) := by
  obtain ⟨task, published⟩ := run
  cases prep with
  | error e => simp [explainQuery, explainQueryLocal]
  | ok u => obtain ((what | (e | _)) | _) := task <;> simp [explainQuery, explainQueryLocal]

theorem catalogPull_eq (run : PullRun) :
    catalogPull site m pondRef sql (.done (.ok info)) true prep run t =
      (((SqlRun.catalogPull run).ending site prep).1.ended,
        t.append ((SqlRun.catalogPull run).trail site m pondRef sql info prep)) := by
  obtain ⟨catalog, task, published⟩ := run
  obtain ((e | _) | _) := catalog
  · simp [catalogPull, catalogPullLocal, getCatalog]
  · cases prep with
    | error e => simp [catalogPull, catalogPullLocal, getCatalog]
    | ok u => obtain ((what | (e | meta_)) | _) := task <;> simp [catalogPull, catalogPullLocal, getCatalog]
  · simp [catalogPull, catalogPullLocal, getCatalog]

end

/-- **An operation on its node**: looked up, placed, and run to its ending. -/
theorem run_perform_eq {op : SqlOp} (site : Site) (m : Moment) (pondRef sql : Text) (lookup : PondLookup) (owner : Bool)
    (prep : Except ErrorEnvelope Unit) (run : SqlRun op) (t : Trail) :
    run.perform site m pondRef sql lookup owner prep t =
      match lookup with
      | .dropped => (.unwound, t)
      | .done (.error e) => (.err e, t.append (rejection site m op.name pondRef))
      | .done (.ok info) =>
        if owner then ((run.ending site prep).1.ended, t.append (run.trail site m pondRef sql info prep))
        else (.err (pondUnavailable info.name), t.append (rejection site m op.name info.pondId)) := by
  obtain ((e | info) | _) := lookup
  · cases run <;> simp [SqlRun.perform, runQuery, readArrow, readCollected, explainQuery, catalogPull, lookUp, audit, rejection,
      Act.bind_apply, Trail.append, SqlOp.name]
  · cases owner
    · cases run <;> simp [SqlRun.perform, runQuery, readArrow, readCollected, explainQuery, catalogPull, lookUp, route, audit,
        rejection, Act.bind_apply, Trail.append, SqlOp.name]
    · cases run with
      | readQuery run => exact runQuery_eq site m pondRef sql info prep t false run
      | writeQuery run => exact runQuery_eq site m pondRef sql info prep t true run
      | readArrow run => exact readArrow_eq site m pondRef sql info prep t run
      | readCollected run collected => exact readCollected_eq site m pondRef sql info prep t run collected
      | explainQuery run => exact explainQuery_eq site m pondRef sql info prep t run
      | catalogPull run => exact catalogPull_eq site m pondRef sql info prep t run
  · cases run <;> simp [SqlRun.perform, runQuery, readArrow, readCollected, explainQuery, catalogPull, lookUp, Act.bind_apply]

namespace SqlCall

/-- What a call leaves on a trail is behind it. -/
theorem perform_eq {op : SqlOp} (c : SqlCall op) (pondRef sql : Text) (t : Trail) :
    c.perform pondRef sql t = ((c.perform pondRef sql .empty).1, t.append (c.leaves pondRef sql)) := by
  induction c generalizing t with
  | here site m lookup owner prep run =>
    unfold leaves
    rw [perform, run_perform_eq, run_perform_eq]
    obtain ((e | info) | _) := lookup
    · simp
    · cases owner <;> simp
    · simp
  | forwarded site m lookup hop unreachable peer ih =>
    unfold leaves at ih ⊢
    obtain ((e | info) | _) := lookup
    · simp [perform, lookUp, audit, Act.bind_apply, Trail.append, Trail.empty]
    · simp only [perform, lookUp, Act.pure_bind, cross]
      rw [ih t]
      cases hop with
      | undelivered | relayed | lost => simp
      | abandoned taken => cases taken <;> simp
    · simp [perform, lookUp, Act.bind_apply]

/-- On the node that does not hand it on. -/
theorem here_leaves {op : SqlOp} (site : Site) (m : Moment) (lookup : PondLookup) (owner : Bool)
    (prep : Except ErrorEnvelope Unit) (run : SqlRun op) (pondRef sql : Text) :
    (here site m lookup owner prep run).leaves pondRef sql =
      match lookup with
      | .dropped => .empty
      | .done (.error _) => rejection site m op.name pondRef
      | .done (.ok info) =>
        if owner then run.trail site m pondRef sql info prep else rejection site m op.name info.pondId := by
  unfold leaves
  rw [perform, run_perform_eq]
  obtain ((e | info) | _) := lookup
  · simp
  · cases owner <;> simp
  · rfl

/-- On a node that hands it on. -/
theorem forwarded_leaves {op : SqlOp} (site : Site) (m : Moment) (lookup : PondLookup) (hop : Hop)
    (unreachable : ErrorEnvelope) (peer : SqlCall op.forwarded) (pondRef sql : Text) :
    (forwarded site m lookup hop unreachable peer).leaves pondRef sql =
      match lookup with
      | .dropped => .empty
      | .done (.error _) => rejection site m op.name pondRef
      | .done (.ok _) => if hop.reaches then peer.leaves pondRef sql else .empty := by
  unfold leaves
  obtain ((e | info) | _) := lookup
  · simp [perform, lookUp, audit, Act.bind_apply, rejection, Trail.empty]
  · rcases hop with _ | _ | _ | (_ | _) <;> rfl
  · rfl

end SqlCall

/-! ### Loading a dataset -/

/-- `DatasetTableInfo`. -/
structure DatasetTableInfo where
  tableName : Text
  sourceUri : Text
  format : Text
  deriving DecidableEq, Repr

/-- What is read of a `DatasetInfo`. -/
structure DatasetInfo where
  name : Text
  tables : List DatasetTableInfo
  deriving DecidableEq, Repr

/-- `quote_ident`. -/
def quoteIdent (name : Text) : Text := '"' :: (RustStr.replaceChar '"' ['"', '"'] name ++ ['"'])

/-- `create_schema_sql`. -/
def createSchemaSql (schema : Text) : Text := "CREATE SCHEMA IF NOT EXISTS ".toList ++ quoteIdent schema

/-- The reader of `dataset_load_sql`: by the format, or by how the URI ends. -/
def readerOf (sourceUri format : Text) : Text :=
  let f := RustStr.toLowercase (RustStr.trim format)
  if f = "csv".toList then "read_csv_auto".toList
  else if f = "json".toList then "read_json_auto".toList
  else if f = "parquet".toList then "read_parquet".toList
  else
    let u := RustStr.toLowercase sourceUri
    if ".csv".toList <:+ u then "read_csv_auto".toList
    else if ".json".toList <:+ u ∨ ".ndjson".toList <:+ u then "read_json_auto".toList
    else "read_parquet".toList

/-- `dataset_load_sql`. -/
def datasetLoadSql (schema : Text) (t : DatasetTableInfo) : Text :=
  "CREATE OR REPLACE TABLE ".toList ++ quoteIdent schema ++ ['.'] ++ quoteIdent t.tableName ++
    " AS SELECT * FROM ".toList ++ readerOf t.sourceUri t.format ++
    ['(', '\''] ++ RustStr.replaceChar '\'' ['\'', '\''] t.sourceUri ++ ['\'', ')']

/-- The statements of a load: each dataset has a schema of its own. -/
def loadStatements (ds : DatasetInfo) : List Text := createSchemaSql ds.name :: ds.tables.map (datasetLoadSql ds.name)

/-- A call of `load_dataset`: the lookup of the dataset, and the call of each of its writes. -/
structure Load where
  site : Site
  m : Moment
  dataset : Awaited (Except ErrorEnvelope DatasetInfo)
  writes : ℕ → SqlCall .writeQuery

/-- The writes from the `k`-th on, up to the first one that fails. -/
def runWrites (pondRef : Text) (writes : ℕ → SqlCall .writeQuery) : ℕ → List Text → Act Trail ErrorEnvelope Unit
  | _, [] => pure ()
  | k, sql :: rest => do
    (writes k).perform pondRef sql
    runWrites pondRef writes (k + 1) rest

/-- `load_dataset_inner`. -/
def Load.inner (load : Load) (pondRef : Text) : Act Trail ErrorEnvelope Unit :=
  match load.dataset with
  | .dropped => Act.unwind
  | .done (.error e) => Act.fail e
  | .done (.ok ds) => runWrites pondRef load.writes 0 (loadStatements ds)

/-- `load_dataset`: it is recorded by the name of the dataset, and its writes are recorded as writes. -/
def loadDataset (load : Load) (pondRef dataset : Text) : Act Trail ErrorEnvelope Unit := do
  match ← (Act.attempt (load.inner pondRef) : Act Trail ErrorEnvelope (Except ErrorEnvelope Unit)) with
  | .ok () => audit load.site load.m "load_dataset" (some pondRef) (some dataset) load.m.durationMs true
  | .error e => do
    audit load.site load.m "load_dataset" (some pondRef) (some dataset) load.m.durationMs false
    Act.fail e

/-! ### What a load leaves -/

namespace SqlCall

/-- What the caller of a call gets, which is not up to the text. -/
def result : {op : SqlOp} → SqlCall op → Ended ErrorEnvelope Unit
  | _, .here site _ lookup owner prep run =>
    match lookup with
    | .dropped => .unwound
    | .done (.error e) => .err e
    | .done (.ok info) => if owner then (run.ending site prep).1.ended else .err (pondUnavailable info.name)
  | _, .forwarded _ _ lookup hop unreachable peer =>
    match lookup, hop with
    | .dropped, _ => .unwound
    | .done (.error e), _ => .err e
    | .done (.ok _), .undelivered | .done (.ok _), .lost => .err unreachable
    | .done (.ok _), .relayed => peer.result
    | .done (.ok _), .abandoned _ => .unwound

theorem perform_result {op : SqlOp} (c : SqlCall op) (pondRef sql : Text) (t : Trail) :
    (c.perform pondRef sql t).1 = c.result := by
  induction c generalizing t with
  | here site m lookup owner prep run =>
    rw [perform, run_perform_eq]
    obtain ((e | info) | _) := lookup
    · rfl
    · cases owner <;> rfl
    · rfl
  | forwarded site m lookup hop unreachable peer ih =>
    obtain ((e | info) | _) := lookup
    · rfl
    · cases hop with
      | relayed => exact ih t
      | undelivered | lost | abandoned => rfl
    · rfl

/-- **A call**: its result, and what it leaves behind the trail. -/
theorem perform_eq_result {op : SqlOp} (c : SqlCall op) (pondRef sql : Text) (t : Trail) :
    c.perform pondRef sql t = (c.result, t.append (c.leaves pondRef sql)) := by
  rw [perform_eq, perform_result]

end SqlCall

section

variable (pondRef : Text) (writes : ℕ → SqlCall .writeQuery)

/-- What the writes from the `k`-th on leave, up to the first one that fails. -/
def writesTrail : ℕ → List Text → Trail
  | _, [] => .empty
  | k, sql :: rest =>
    ((writes k).leaves pondRef sql).append (if (writes k).result.isOk then writesTrail (k + 1) rest else .empty)

/-- How they end. -/
def writesResult : ℕ → List Text → Ended ErrorEnvelope Unit
  | _, [] => .ok ()
  | k, _ :: rest => if (writes k).result.isOk then writesResult (k + 1) rest else (writes k).result

theorem runWrites_eq (k : ℕ) (texts : List Text) (t : Trail) :
    runWrites pondRef writes k texts t = (writesResult writes k texts, t.append (writesTrail pondRef writes k texts)) := by
  induction texts generalizing k t with
  | nil => simp [runWrites, writesResult, writesTrail]
  | cons sql rest ih =>
    rw [runWrites, Act.bind_apply, SqlCall.perform_eq_result, writesResult, writesTrail]
    cases hr : (writes k).result with
    | ok _ =>
      simp only [Ended.isOk, if_true]
      rw [ih, Trail.append_assoc]
    | err e => simp [Ended.isOk]
    | unwound => simp [Ended.isOk]

end

/-- How `load_dataset_inner` ends, and what it leaves. -/
def Load.innerEnd (load : Load) (pondRef : Text) : Ended ErrorEnvelope Unit × Trail :=
  match load.dataset with
  | .dropped => (.unwound, .empty)
  | .done (.error e) => (.err e, .empty)
  | .done (.ok ds) =>
    (writesResult load.writes 0 (loadStatements ds), writesTrail pondRef load.writes 0 (loadStatements ds))

/-- The record of a load that was not dropped. -/
def Load.record (load : Load) (pondRef dataset : Text) : Ended ErrorEnvelope Unit → List AccessRecord
  | .unwound => []
  | r => [accessRecord load.m.traceId load.site.identity "load_dataset" (some pondRef) (some dataset) load.m.durationMs r.isOk]

/-- What a load leaves. -/
def Load.leaves (load : Load) (pondRef dataset : Text) : Trail := (loadDataset load pondRef dataset .empty).2

theorem Load.leaves_eq (load : Load) (pondRef dataset : Text) :
    load.leaves pondRef dataset =
      (load.innerEnd pondRef).2.append ⟨load.record pondRef dataset (load.innerEnd pondRef).1, [], 0, 0⟩ := by
  have hinner : load.inner pondRef .empty = load.innerEnd pondRef := by
    unfold Load.inner Load.innerEnd
    obtain ((e | ds) | _) := load.dataset
    · rfl
    · exact (runWrites_eq pondRef load.writes 0 (loadStatements ds) .empty).trans (by rw [Trail.empty_append])
    · rfl
  unfold Load.leaves loadDataset
  rw [Act.bind_apply, Act.attempt, hinner]
  rcases load.innerEnd pondRef with ⟨_ | e | _, t⟩
  · simp [audit, Load.record, Trail.append, Ended.isOk]
  · simp [audit, Load.record, Trail.append, Ended.isOk, Act.bind_apply]
  · simp [Load.record, Trail.append]

end Latiq.AgentCore
