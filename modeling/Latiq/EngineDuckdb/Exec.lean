import Latiq.Engine.Sql
import Latiq.EngineDuckdb.Errclass
import Latiq.EngineDuckdb.Grammar
import Latiq.Library.Unwind

/-!
# Running statements

`exec.rs`: the transaction brackets around a caller's text, and what runs inside
them. A computation over a connection is an `Act Duck EngineError`; a text
reaches the connection through the grammar `g`.

The rows of a result are not modelled, but the transaction and the snapshot
they were read from are (`Reading`). What is outside this code is a parameter:
how fetching the rows ends (`Fetch`), how a sink takes the batches (`Stream`),
and whether the plan of a text names a table of the pond (`owned`).
-/

namespace Latiq.EngineDuckdb

open SqlLex (Text)
open Unwind
open Latiq.Engine (classify SqlShape)

/-! ### Statements and texts on a connection -/

/-- Run one statement. -/
def execute (st : Stmt) : Act Duck Text Reading := Act.lift (Duck.exec st)

/-- Run statements in order, up to the first that fails. -/
def executeAll : List Stmt → Act Duck Text Unit
  | [] => pure ()
  | st :: sts => do
    let _ ← execute st
    executeAll sts

section

variable (g : Grammar)

/-- `Connection::execute_batch`. -/
def executeBatch (sql : Text) : Act Duck Text Unit :=
  match g.parse sql with
  | .error e => Act.fail e
  | .ok sts => executeAll sts

/-- A text of our own: its failure is ours and is not classified. -/
def ours (sql : String) : Act Duck EngineError Unit := Act.mapErr .engine (executeBatch g sql.toList)

/-- `let _ = inst.conn.execute_batch("ROLLBACK")`. -/
def rollback : Act Duck EngineError Unit := do
  let _ ← Act.attempt (executeBatch g "ROLLBACK".toList)
  pure ()

/-- `max_snapshot`: the newest snapshot, or `none` also where the query failed. -/
def maxSnapshot : Act Duck EngineError (Option ℕ) := do
  match ← Act.attempt (execute .select) with
  | .ok r => pure r.latest
  | .error _ => pure none

/-! ### Preparing and materializing a caller's text -/

/-- Run all statements but the last, and give the last. -/
def prepareAll : List Stmt → Act Duck Text (Option Stmt)
  | [] => pure none
  | [st] => pure (some st)
  | st :: sts => do
    let _ ← execute st
    prepareAll sts

def emptyMessage : Text := "The statement is empty — there is nothing to run.".toList

/-- `prepare`. -/
def prepare (sql : Text) : Act Duck EngineError (Option Stmt) :=
  if RustStr.trim sql = [] then Act.fail (.parse emptyMessage)
  else
    Act.mapErr Errclass.classifyMessage <|
      match g.parse sql with
      | .error e => Act.fail e
      | .ok sts => prepareAll sts

/-- How fetching the rows of a result ends: with so many of them, with an error, or in a panic. -/
inductive Fetch where
  | done (rows : ℕ)
  | fails (msg : Text)
  | unwinds
  deriving DecidableEq, Repr

/-- Fetch the rows. -/
def fetchRows : Fetch → Act Duck EngineError ℕ
  | .done n => pure n
  | .fails msg => Act.fail (Errclass.classifyMessage msg)
  | .unwinds => Act.unwind

/-- `materialize`: what the rows were read from, and how many there are. -/
def materialize (sql : Text) (fetch : Fetch) : Act Duck EngineError (Option Reading × ℕ) := do
  match ← prepare g sql with
  | none => pure (none, 0)
  | some st =>
    let r ← Act.mapErr Errclass.classifyMessage (execute st)
    let n ← fetchRows fetch
    pure (some r, n)

/-! ### Results -/

/-- `QueryMeta`, with what its datasets were read from. -/
structure QueryMeta where
  rows : ℕ
  snapshotId : Option ℕ
  datasets : Option (List Reading)
  deriving DecidableEq, Repr

/-- `QueryResult`, with what its columns and rows were read from. -/
structure QueryResult where
  answer : Option Reading
  meta_ : QueryMeta
  deriving DecidableEq, Repr

/-! ### The read bracket -/

/-- `in_read_txn`: `ReadTxn` rolls back on drop, unless its `COMMIT` succeeded. -/
def inReadTxn {α : Type} (f : Act Duck EngineError α) : Act Duck EngineError α := do
  ours g "BEGIN TRANSACTION READ ONLY"
  Act.andFinally
    (do
      let out ← f
      ours g "COMMIT"
      pure out)
    fun ended s => if ended.isOk then s else (rollback g s).2

/-- `run_read`. -/
def runRead (sql : Text) (fetch : Fetch) : Act Duck EngineError QueryResult :=
  if classify sql = .write then Act.fail .readOnlyViolation
  else do
    let (r, n) ← materialize g sql fetch
    pure ⟨r, ⟨n, none, none⟩⟩

/-- What the loop over the batches of a result meets at one of them. -/
inductive BatchStep where
  /-- The token is cancelled when the batch arrives. -/
  | cancelled
  /-- The sink takes so many rows, and may want no more. -/
  | taken (rows : ℕ) (stop : Bool)
  /-- The sink, or the conversion of the batch, panics. -/
  | unwinds
  deriving DecidableEq, Repr

/-- A streamed result: whether the sink stops at the schema, and what happens at each batch. -/
structure Stream where
  schemaStops : Bool
  batches : List BatchStep
  deriving DecidableEq, Repr

/-- The loop of `run_read_arrow`, with the rows so far. -/
def takeBatches (rows : ℕ) : List BatchStep → Act Duck EngineError ℕ
  | [] => pure rows
  | .cancelled :: _ => Act.fail .cancelled
  | .unwinds :: _ => Act.unwind
  | .taken n stop :: bs => if stop then pure (rows + n) else takeBatches (rows + n) bs

/-- `run_read_arrow`; the answer is what the schema and the batches given to the sink were read
from. -/
def runReadArrow (sql : Text) (stream : Stream) : Act Duck EngineError QueryResult :=
  if classify sql = .write then Act.fail .readOnlyViolation
  else do
    match ← prepare g sql with
    | none => pure ⟨none, ⟨0, none, none⟩⟩
    | some st =>
      let r ← Act.mapErr Errclass.classifyMessage (execute st)
      if stream.schemaStops then pure ⟨some r, ⟨0, none, none⟩⟩
      else
        let n ← takeBatches 0 stream.batches
        pure ⟨some r, ⟨n, none, none⟩⟩

end

/-! ### Identities -/

/-- `latiq_common::Identity`. -/
structure Identity where
  agentId : Text
  subject : Text
  issuer : Text
  verified : Bool
  deriving DecidableEq, Repr

/-- `Identity::claimed`: the leaf in the header, or `anonymous`. -/
def Identity.claimed (header : Option Text) : Identity :=
  let agentId := match header.map RustStr.trim with
    | some (c :: s) => c :: s
    | _ => "anonymous".toList
  ⟨agentId, [], [], false⟩

/-- A hexadecimal digit. -/
def hexDigit (n : ℕ) : Char := if n < 10 then Char.ofNat (48 + n) else Char.ofNat (87 + n)

/-- One character in a JSON string. -/
def jsonChar (c : Char) : Text :=
  if c = '"' then ['\\', '"']
  else if c = '\\' then ['\\', '\\']
  else if c = '\x08' then ['\\', 'b']
  else if c = '\x0c' then ['\\', 'f']
  else if c = '\n' then ['\\', 'n']
  else if c = '\r' then ['\\', 'r']
  else if c = '\t' then ['\\', 't']
  else if c.toNat < 32 then ['\\', 'u', '0', '0', hexDigit (c.toNat / 16), hexDigit (c.toNat % 16)]
  else [c]

/-- A JSON string. -/
def jsonString (t : Text) : Text := '"' :: (t.flatMap jsonChar ++ ['"'])

/-- `"key":value`. -/
def jsonField (key : String) (value : Text) : Text := jsonString key.toList ++ ':' :: value

/-- The `commit_extra_info` of a write: a JSON object, its keys in order. -/
def extraInfo (identity : Identity) (traceId : Option Text) : Text :=
  let fields :=
    [jsonField "agent_id" (jsonString identity.agentId), jsonField "issuer" (jsonString identity.issuer)] ++
      (traceId.map fun t => jsonField "trace_id" (jsonString t)).toList ++
      [jsonField "verified" (if identity.verified then "true".toList else "false".toList)]
  '{' :: ([','].intercalate fields ++ ['}'])

/-- The author of a write: the verified subject, or else the claimed agent. -/
def author (identity : Identity) : Text := if identity.verified then identity.subject else identity.agentId

/-- What a write by this identity is recorded with. -/
def noteOf (identity : Identity) (traceId : Option Text) (op : Text) : Note :=
  ⟨author identity, op, extraInfo identity traceId⟩

/-! ### The write bracket -/

/-- Rust's order on `Option`: `after > before`, where `None` is the least. -/
def later : Option ℕ → Option ℕ → Bool
  | some a, some b => decide (b < a)
  | some _, none => true
  | none, _ => false

section

variable (g : Grammar)

/-- `if let Err(e) = … { rollback(); return Err(e); }`. -/
def orRollback {α : Type} (p : Act Duck EngineError α) : Act Duck EngineError α := do
  match ← Act.attempt p with
  | .ok a => pure a
  | .error e => do
    rollback g
    Act.fail e

/-- `in_write_txn`: the body between `BEGIN` and `set_commit_message`, `COMMIT`, and the snapshot
that is newer afterwards. -/
def inWriteTxn {α : Type} (identity : Identity) (traceId : Option Text) (catalog op : Text)
    (body : Act Duck EngineError α) : Act Duck EngineError (α × Option ℕ) := do
  let before ← maxSnapshot
  ours g "BEGIN"
  let out ← orRollback g body
  let call := callText catalog (author identity) op (extraInfo identity traceId)
  orRollback g (Act.mapErr .engine (executeBatch g call))
  orRollback g (ours g "COMMIT")
  let after ← maxSnapshot
  pure (out, if later after before then after else none)

/-- `run_write`. -/
def runWrite (sql : Text) (identity : Identity) (traceId : Option Text) (catalog : Text) (fetch : Fetch) :
    Act Duck EngineError QueryResult := do
  let ((r, n), snapshotId) ←
    inWriteTxn g identity traceId catalog "write_query".toList (materialize g sql fetch)
  if snapshotId.isSome then pure ⟨none, ⟨0, snapshotId, none⟩⟩ else pure ⟨r, ⟨n, none, none⟩⟩

end

/-! ### Provenance -/

/-- `referenced_tables`: what the plan of the text was read from; a failure is no dataset. -/
def referencedTables : Act Duck EngineError (List Reading) := do
  match ← Act.attempt (execute .select) with
  | .ok r => pure [r]
  | .error _ => pure []

/-- `annotate_schemas`, where the plan names a table of the pond; a failure leaves the datasets as
they are. -/
def annotateSchemas (owned : Bool) (datasets : List Reading) : Act Duck EngineError (List Reading) :=
  if owned = false ∨ datasets = [] then pure datasets
  else do
    match ← Act.attempt (execute .select) with
    | .ok r => pure (datasets ++ [r])
    | .error _ => pure datasets

/-! ### Explaining a statement -/

def analyzeMessage : Text :=
  "EXPLAIN ANALYZE executes the statement; use read_query/write_query to run it".toList

/-- What `run_explain` writes in front of a text. -/
def explainJson : Text := "EXPLAIN (FORMAT JSON) ".toList

/-- What it writes in front of the text if DuckDB refuses the JSON form. -/
def explainPlain : Text := "EXPLAIN ".toList

/-- `ExplainResult`, before its plan is read: how many cells there are, and whether they are JSON. -/
structure ExplainResult where
  cells : ℕ
  isJson : Bool
  deriving DecidableEq, Repr

/-- The guard of `run_explain`: the text starts with `ANALYZE`. -/
def refusesAnalyze (sql : Text) : Bool :=
  "analyze".toList.isPrefixOf (RustStr.toLowercase (RustStr.trimStart sql))

section

variable (g : Grammar)

/-- `explain_cells`. -/
def explainCells (sql : Text) (fetch : Fetch) : Act Duck EngineError ℕ := do
  match ← Act.mapErr Errclass.classifyMessage (match g.parse sql with
    | .error e => Act.fail e
    | .ok sts => prepareAll sts) with
  | none => pure 0
  | some st =>
    let _ ← Act.mapErr Errclass.classifyMessage (execute st)
    fetchRows fetch

/-- `run_explain`. `json` and `text` are how fetching the cells of either form ends. -/
def runExplain (sql : Text) (json text : Fetch) : Act Duck EngineError ExplainResult :=
  if refusesAnalyze sql then Act.fail (.parse analyzeMessage)
  else do
    match ← Act.attempt (explainCells g (explainJson ++ sql) json) with
    | .ok cells => pure ⟨cells, true⟩
    | .error _ => do
      let cells ← explainCells g (explainPlain ++ sql) text
      pure ⟨cells, false⟩

end

end Latiq.EngineDuckdb
