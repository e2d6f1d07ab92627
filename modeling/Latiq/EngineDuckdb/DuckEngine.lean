import Latiq.EngineDuckdb.Exec

/-!
# The engine

`duck_engine.rs`: the operations of `QueryEngine` on a connection that was
checked out (a read) or locked (a write, a pull). What a call meets besides the
connection is a parameter: the polls of a writer that waits (`waits`), how the
rows are fetched, and the plan of an attach.
-/

namespace Latiq.EngineDuckdb

open SqlLex (Text)
open Unwind
open Latiq.Engine (classify SqlShape)

/-- What an operation reads of `PondLocation`. -/
structure PondLocation where
  catalogName : Text
  lineage : Bool
  deriving DecidableEq, Repr

/-! ### Provenance, where the pond opted in -/

/-- `plan_datasets`. -/
def planDatasets (loc : PondLocation) : Act Duck EngineError (Option (List Reading)) :=
  if loc.lineage then do
    let datasets ← referencedTables
    pure (some datasets)
  else pure none

/-- `annotate`. -/
def annotate (owned : Bool) : Option (List Reading) → Act Duck EngineError (Option (List Reading))
  | none => pure none
  | some datasets => do
    let datasets ← annotateSchemas owned datasets
    pure (some datasets)

/-- `apply_datasets`. -/
def applyDatasets (m : QueryMeta) : Option (List Reading) → QueryMeta
  | none => m
  | some datasets => { m with datasets := some datasets }

/-! ### Cancellation -/

/-- An `INTERRUPT` error is `Cancelled`. -/
def normalizeInterrupt : EngineError → EngineError
  | .engine m => if RustStr.contains (RustStr.toUppercase m) "INTERRUPT".toList then .cancelled else .engine m
  | e => e

/-- Arm or disarm the watcher. -/
def Duck.arm (s : Duck) (armed : Bool) : Duck := { s with armed }

/-- `run_with_abort`: the watcher is armed while `f` runs and joined before anything else does,
also when `f` panics. -/
def runWithAbort {α : Type} (f : Act Duck EngineError α) : Act Duck EngineError α :=
  Act.mapErr normalizeInterrupt <|
    Act.andFinally
      (do
        Act.modify (·.arm true)
        f)
      fun _ s => s.arm false

/-- `lock_writer`. Each entry is one poll that found the writer busy, and whether the token was
cancelled then; the lock is free at the end of the list. -/
def lockWriter : List Bool → Except EngineError Unit
  | [] => .ok ()
  | cancelled :: waits => if cancelled then .error .cancelled else lockWriter waits

/-! ### The operations -/

section

variable (g : Grammar)

/-- `read_query`, on the connection it checked out. -/
def readQuery (loc : PondLocation) (owned : Bool) (sql : Text) (fetch : Fetch) :
    Act Duck EngineError QueryResult :=
  if classify sql = .write then Act.fail .readOnlyViolation
  else
    runWithAbort <|
      inReadTxn g do
        let datasets ← planDatasets loc
        let datasets ← annotate owned datasets
        let res ← runRead g sql fetch
        pure { res with meta_ := applyDatasets res.meta_ datasets }

/-- `read_arrow`, on the connection it checked out. -/
def readArrow (loc : PondLocation) (owned : Bool) (sql : Text) (stream : Stream) :
    Act Duck EngineError QueryResult :=
  if classify sql = .write then Act.fail .readOnlyViolation
  else
    runWithAbort <|
      inReadTxn g do
        let datasets ← planDatasets loc
        let datasets ← annotate owned datasets
        let res ← runReadArrow g sql stream
        pure { res with meta_ := applyDatasets res.meta_ datasets }

/-- `explain_query`, on the connection it checked out: no transaction, no watcher. -/
def explainQuery (sql : Text) (json text : Fetch) : Act Duck EngineError ExplainResult := runExplain g sql json text

/-- What a write runs under its watcher. -/
def writeBody (loc : PondLocation) (owned : Bool) (sql : Text) (identity : Identity) (traceId : Option Text)
    (fetch : Fetch) : Act Duck EngineError QueryResult := do
  let datasets ← planDatasets loc
  let res ← runWrite g sql identity traceId loc.catalogName fetch
  let datasets ← annotate owned datasets
  pure { res with meta_ := applyDatasets res.meta_ datasets }

/-- `write_query`, on the pond's writer. After an error it rolls back once more, with the watcher
gone. -/
def writeQuery (waits : List Bool) (loc : PondLocation) (owned : Bool) (sql : Text) (identity : Identity)
    (traceId : Option Text) (fetch : Fetch) : Act Duck EngineError QueryResult :=
  match lockWriter waits with
  | .error e => Act.fail e
  | .ok () => orRollback g (runWithAbort (writeBody g loc owned sql identity traceId fetch))

/-- `AttachPlan`: the statements that attach an external catalog. -/
structure AttachPlan where
  alias_ : Text
  load : List (Text × Text)
  secrets : List (Text × Text)
  attach : Text
  deriving DecidableEq, Repr

/-- `AttachPlan::teardown`. -/
def AttachPlan.teardown (plan : AttachPlan) : List Text :=
  ("DETACH ".toList ++ quoteIdent plan.alias_) ::
    plan.secrets.map fun (name, _) => "DROP SECRET IF EXISTS ".toList ++ name

/-- `extension_not_cached`. -/
def extensionNotCached (extension context err : Text) : EngineError :=
  .capabilityUnavailable
    ("The DuckDB extension '".toList ++ extension ++ "' (".toList ++ context ++
      (") is not cached on this node, and nothing the caller sends changes this — extension downloads are " ++
        "disabled while serving requests. An operator restores it by running `latiq warm-extensions` on the node " ++
        "with network access (the container image bakes the same step in at build time), then restarting the " ++
        "node. Underlying error: ").toList ++ err)
    extension

/-- Why `attach_catalog` needs an extension. -/
def loadContext : Text := "required by this catalog type, for the transient attach behind pull_catalog".toList

/-- The extensions of a plan. -/
def loadAll : List (Text × Text) → Act Duck EngineError Unit
  | [] => pure ()
  | (ext, sql) :: rest => do
    let _ ← Act.mapErr (extensionNotCached ext loadContext) (execute (.attach sql))
    loadAll rest

/-- The secrets of a plan. -/
def createSecrets : List (Text × Text) → Act Duck EngineError Unit
  | [] => pure ()
  | (_, sql) :: rest => do
    let _ ← Act.mapErr Errclass.classifyMessage (execute (.attach sql))
    createSecrets rest

def autoinstallMessage (err : Text) : Text := "disable extension autoinstall: ".toList ++ err

/-- `attach_catalog_inner`. -/
def attachCatalogInner (plan : AttachPlan) : Act Duck EngineError Unit := do
  let _ ← Act.mapErr (fun e => .engine (autoinstallMessage e))
    (execute (.attach "SET autoinstall_known_extensions=false;".toList))
  loadAll plan.load
  createSecrets plan.secrets
  let _ ← Act.mapErr Errclass.classifyMessage (execute (.attach plan.attach))
  pure ()

/-- `teardown_catalog`: every statement of it, whatever becomes of them. -/
def teardownCatalog : List Text → Act Duck EngineError Unit
  | [] => pure ()
  | sql :: rest => do
    let _ ← Act.attempt (execute (.attach sql))
    teardownCatalog rest

/-- `attach_catalog`. -/
def attachCatalog (plan : AttachPlan) : Act Duck EngineError Unit := do
  match ← Act.attempt (attachCatalogInner plan) with
  | .ok _ => pure ()
  | .error e => do
    teardownCatalog plan.teardown
    Act.fail e

/-- `pull_catalog`, on the pond's writer, with the plan `attachers::plan` made of its parameters. -/
def pullCatalog (loc : PondLocation) (plan : Except EngineError AttachPlan) (owned : Bool) (query : Text)
    (identity : Identity) (traceId : Option Text) : Act Duck EngineError QueryMeta :=
  match plan with
  | .error e => Act.fail e
  | .ok plan => do
    attachCatalog plan
    let datasets ← planDatasets loc
    let ran ← Act.attempt <|
      inWriteTxn g identity traceId loc.catalogName "pull_catalog".toList
        (Act.mapErr Errclass.classifyMessage (executeBatch g query))
    teardownCatalog plan.teardown
    match ran with
    | .error e => Act.fail e
    | .ok (_, snapshotId) => do
      let datasets ← annotate owned datasets
      pure (applyDatasets ⟨0, snapshotId, none⟩ datasets)

end

/-! ### The connections of a pond -/

/-- `Pond` with its `ReadPool`: the database, the writer, the idle read connections (the one given back
last first), how many read connections there are, and how many there may be. -/
structure Pond where
  db : Db
  writer : Conn
  idle : List Conn
  created : ℕ
  max : ℕ
  deriving DecidableEq, Repr

/-- `Pond::open`, on a machine with so many cores. -/
def Pond.opened (cores : ℕ) : Pond := ⟨.created, .fresh, [], 0, min (Nat.max (cores * 2) 4) 32⟩

/-- `checkout_read`: an idle connection, or a new one while there may be more. `none` is the wait for one
to come back. -/
def Pond.checkoutRead (p : Pond) : Option (Conn × Pond) :=
  match p.idle with
  | c :: idle => some (c, { p with idle })
  | [] => if p.created < p.max then some (.fresh, { p with created := p.created + 1 }) else none

/-- `ReadGuard::drop`: a connection is kept if it is reusable, and discarded otherwise. -/
def Pond.giveBack (p : Pond) (c : Conn) (reusable : Bool) : Pond :=
  if reusable then { p with idle := c :: p.idle } else { p with created := p.created - 1 }

end Latiq.EngineDuckdb
