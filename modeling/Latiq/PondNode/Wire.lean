import Latiq.Common.Error
import Latiq.Common.Meta

/-!
# The results on the wire

What a pond's node answers with, and the JSON forms in which the answers of its owner come to another node.

* `queryValue` and `queryResultFromJson` — the form of a query's result, by hand on both sides.
* The codecs of the other results.
* `queryResultFromJson_queryValue`, `catalogTablesFromJson_catalogValue`, and the `codec_kept` of each result — what of
  it comes back.
-/

namespace Latiq.PondNode

open RustStr Serde Latiq.Common

/-! ### The results -/

/-- `QueryResult`. -/
structure QueryResult where
  columns : List Text
  rows : List (List Value)
  meta_ : QueryMeta

/-- `ScanOp`. -/
structure ScanOp where
  table : Text
  scanType : Text
  estimatedRowsScanned : ℕ
  source : Text
  deriving DecidableEq, Repr

/-- `ExplainResult`. -/
structure ExplainResult where
  estimatedRows : ℕ
  scanOperations : List ScanOp
  warnings : List Text
  suggestions : List Text
  rawPlan : Text
  deriving DecidableEq, Repr

/-- `TableInfo`. -/
structure TableInfo where
  name : Text
  columns : List (Text × Text)
  rowCountEstimate : ℕ
  comment : Option Text
  deriving DecidableEq, Repr

/-- `PondInfo`. -/
structure PondInfo where
  pondId : Text
  name : Text
  owner : Text
  createdAt : Text
  policyJson : Text
  nodeId : Option Text
  nodeEndpoint : Option Text
  tier : Text
  extensions : List Text
  description : Text
  lineage : Bool
  deriving DecidableEq, Repr

/-- `DescribeResult`, with the tables of its `SchemaSummary`. -/
structure DescribeResult where
  pond : PondInfo
  tables : List TableInfo
  deriving DecidableEq, Repr

/-- `LineagePage`: the events are as they were recorded. -/
structure LineagePage where
  pondId : Text
  pondName : Text
  lineageDir : Text
  events : List Value
  limitApplied : ℕ
  truncated : Bool
  malformedLines : ℕ
  unreadableFiles : ℕ

/-- `PullResult`. -/
structure PullResult where
  catalog : Text
  query : Text
  deriving DecidableEq, Repr

/-- A result whose datasets are without their columns. -/
def QueryResult.withoutFields (qr : QueryResult) : QueryResult := { qr with meta_ := qr.meta_.withoutFields }

/-! ### Query results -/

/-- `query_value`. -/
def queryValue (qr : QueryResult) : Value :=
  let statement := if qr.meta_.snapshotId.isSome then "write_query" else "read_query"
  .obj (record
    [("columns", some ((list text).encode qr.columns)),
      ("rows", some ((list (list value)).encode qr.rows)),
      ("statement", some (.str statement.toList)),
      ("status", some (.str "ok".toList)),
      ("_meta", some (QueryMeta.codec.encode qr.meta_))])

/-- A member of a value that is read by a codec, or the error that names it; `complaint` is what the reader says of a
value that it cannot read. -/
def readMember {α : Type} (complaint : Value → Text) (v : Value) (name : String) (c : Codec α) :
    Except ErrorEnvelope α :=
  let w := (v.get? name).getD .null
  match c.decode w with
  | some a => .ok a
  | none => .error (.forKind .internal ("forward decode ".toList ++ name.toList ++ ": ".toList ++ complaint w))

/-- `query_result_from_json`. -/
def queryResultFromJson (complaint : Value → Text) (v : Value) : Except ErrorEnvelope QueryResult := do
  let columns ← readMember complaint v "columns" (list text)
  let rows ← readMember complaint v "rows" (list (list value))
  let meta_ ← readMember complaint v "_meta" QueryMeta.codec
  return ⟨columns, rows, meta_⟩

theorem readMember_of_get? {α : Type} {complaint : Value → Text} {v : Value} {name : String} {c : Codec α} {a : α}
    (h : v.get? name = some (c.encode a)) : readMember complaint v name c = .ok (c.kept a) := by
  simp [readMember, h, c.decode_encode]

/-- **A query's result** comes back without the columns of its datasets. -/
theorem queryResultFromJson_queryValue (complaint : Value → Text) (qr : QueryResult) :
    queryResultFromJson complaint (queryValue qr) = .ok qr.withoutFields := by
  have hcolumns : (queryValue qr).get? "columns" = some ((list text).encode qr.columns) :=
    get?_record (by simp) (by simp)
  have hrows : (queryValue qr).get? "rows" = some ((list (list value)).encode qr.rows) :=
    get?_record (by simp) (by simp)
  have hmeta : (queryValue qr).get? "_meta" = some (QueryMeta.codec.encode qr.meta_) := get?_record (by simp) (by simp)
  simp [queryResultFromJson, readMember_of_get? hcolumns, readMember_of_get? hrows, readMember_of_get? hmeta,
    QueryResult.withoutFields, bind, Except.bind, pure, Except.pure]

/-! ### The other results -/

/-- The fields of a scan. -/
def ScanOp.fields : Fields ScanOp :=
  .of (fun s => (s.table, s.scanType, s.estimatedRowsScanned, s.source))
    (fun (table, scanType, estimatedRowsScanned, source) => ⟨table, scanType, estimatedRowsScanned, source⟩) <|
    (Fields.required "table" text).also <|
    (Fields.required "scan_type" text).also <|
    (Fields.required "estimated_rows_scanned" unsigned).also <|
    Fields.required "source" text

def ScanOp.codec : Codec ScanOp := fields.codec (by decide)

@[simp] theorem ScanOp.codec_kept : ScanOp.codec.kept = id := by
  funext s
  simp [codec, fields]

/-- The fields of an explanation. -/
def ExplainResult.fields : Fields ExplainResult :=
  .of (fun r => (r.estimatedRows, r.scanOperations, r.warnings, r.suggestions, r.rawPlan))
    (fun (estimatedRows, scanOperations, warnings, suggestions, rawPlan) =>
      ⟨estimatedRows, scanOperations, warnings, suggestions, rawPlan⟩) <|
    (Fields.required "estimated_rows" unsigned).also <|
    (Fields.orDefault "scan_operations" (list ScanOp.codec) []).also <|
    (Fields.orDefault "warnings" (list text) []).also <|
    (Fields.orDefault "suggestions" (list text) []).also <|
    Fields.required "raw_plan" text

def ExplainResult.codec : Codec ExplainResult := fields.codec (by decide)

@[simp] theorem ExplainResult.codec_kept : ExplainResult.codec.kept = id := by
  funext r
  simp [codec, fields]

/-- The fields of a table. -/
def TableInfo.fields : Fields TableInfo :=
  .of (fun t => (t.name, t.columns, t.rowCountEstimate, t.comment))
    (fun (name, columns, rowCountEstimate, comment) => ⟨name, columns, rowCountEstimate, comment⟩) <|
    (Fields.required "name" text).also <|
    (Fields.required "columns" (list (pair text text))).also <|
    (Fields.required "row_count_estimate" unsigned).also <|
    Fields.optional "comment" text text_ne_null

def TableInfo.codec : Codec TableInfo := fields.codec (by decide)

@[simp] theorem TableInfo.codec_kept : TableInfo.codec.kept = id := by
  funext t
  simp [codec, fields]

/-- The fields of a pond's record. -/
def PondInfo.fields : Fields PondInfo :=
  .of
    (fun p => (p.pondId, p.name, p.owner, p.createdAt, p.policyJson, p.nodeId, p.nodeEndpoint, p.tier, p.extensions,
      p.description, p.lineage))
    (fun (pondId, name, owner, createdAt, policyJson, nodeId, nodeEndpoint, tier, extensions, description, lineage) =>
      ⟨pondId, name, owner, createdAt, policyJson, nodeId, nodeEndpoint, tier, extensions, description, lineage⟩) <|
    (Fields.required "pond_id" text).also <|
    (Fields.required "name" text).also <|
    (Fields.required "owner" text).also <|
    (Fields.required "created_at" text).also <|
    (Fields.required "policy_json" text).also <|
    (Fields.orDefault "node_id" (option text text_ne_null) none).also <|
    (Fields.orDefault "node_endpoint" (option text text_ne_null) none).also <|
    (Fields.orDefault "tier" text []).also <|
    (Fields.orDefault "extensions" (list text) []).also <|
    (Fields.orDefault "description" text []).also <|
    Fields.orDefault "lineage" bool false

def PondInfo.codec : Codec PondInfo := fields.codec (by decide)

@[simp] theorem PondInfo.codec_kept : PondInfo.codec.kept = id := by
  funext p
  simp [codec, fields]

/-- The fields of a pond's schema: its tables. -/
def tablesFields : Fields (List TableInfo) := Fields.required "tables" (list TableInfo.codec)

def tablesCodec : Codec (List TableInfo) := tablesFields.codec (by decide)

@[simp] theorem tablesCodec_kept : tablesCodec.kept = id := by simp [tablesCodec, tablesFields]

/-- The fields of a description. -/
def DescribeResult.fields : Fields DescribeResult :=
  .of (fun d => (d.pond, d.tables)) (fun (pond, tables) => ⟨pond, tables⟩) <|
    (Fields.required "pond" PondInfo.codec).also <|
    Fields.required "schema" tablesCodec

def DescribeResult.codec : Codec DescribeResult := fields.codec (by decide)

@[simp] theorem DescribeResult.codec_kept : DescribeResult.codec.kept = id := by
  funext d
  simp [codec, fields]

/-- The fields of a page of lineage. -/
def LineagePage.fields : Fields LineagePage :=
  .of
    (fun p => (p.pondId, p.pondName, p.lineageDir, p.events, p.limitApplied, p.truncated, p.malformedLines,
      p.unreadableFiles))
    (fun (pondId, pondName, lineageDir, events, limitApplied, truncated, malformedLines, unreadableFiles) =>
      ⟨pondId, pondName, lineageDir, events, limitApplied, truncated, malformedLines, unreadableFiles⟩) <|
    (Fields.required "pond_id" text).also <|
    (Fields.required "pond_name" text).also <|
    (Fields.required "lineage_dir" text).also <|
    (Fields.required "events" (list value)).also <|
    (Fields.orDefault "limit_applied" unsigned 0).also <|
    (Fields.required "truncated" bool).also <|
    (Fields.required "malformed_lines" unsigned).also <|
    Fields.orDefault "unreadable_files" unsigned 0

def LineagePage.codec : Codec LineagePage := fields.codec (by decide)

@[simp] theorem LineagePage.codec_kept : LineagePage.codec.kept = id := by
  funext p
  simp [codec, fields]

/-- The fields of a pull. -/
def PullResult.fields : Fields PullResult :=
  .of (fun p => (p.catalog, p.query)) (fun (catalog, query) => ⟨catalog, query⟩) <|
    (Fields.required "catalog" text).also <|
    Fields.required "query" text

def PullResult.codec : Codec PullResult := fields.codec (by decide)

@[simp] theorem PullResult.codec_kept : PullResult.codec.kept = id := by
  funext p
  simp [codec, fields]

/-! ### The tables of a catalog -/

/-- A table of a catalog, as the owner writes it. -/
def tableValue (table : Text × Text) : Value :=
  .obj (record [("schema", some (.str table.1)), ("table", some (.str table.2))])

/-- What the owner answers to `catalog_describe`. -/
def catalogValue (catalog : Text) (tables : List (Text × Text)) : Value :=
  .obj (record [("catalog", some (.str catalog)), ("tables", some (.arr (tables.map tableValue)))])

/-- `as_str`. -/
def asStr : Value → Option Text
  | .str s => some s
  | _ => none

/-- The schema and the name of a table. -/
def tableFromJson (v : Value) : Option (Text × Text) := do
  let schema ← (← v.get? "schema") |> asStr
  let table ← (← v.get? "table") |> asStr
  return (schema, table)

/-- What the node that forwards makes of it. -/
def catalogTablesFromJson (v : Value) : Except ErrorEnvelope (List (Text × Text)) :=
  match v.get? "tables" with
  | some (.arr tables) => .ok (tables.filterMap tableFromJson)
  | _ => .error (.forKind .internal "forward decode catalog_describe: no tables".toList)

theorem tableFromJson_tableValue (table : Text × Text) : tableFromJson (tableValue table) = some table := by
  have hschema : (tableValue table).get? "schema" = some (.str table.1) := get?_record (by simp) (by simp)
  have htable : (tableValue table).get? "table" = some (.str table.2) := get?_record (by simp) (by simp)
  simp [tableFromJson, hschema, htable, asStr]

/-- **The tables of a catalog** come back as they are. -/
theorem catalogTablesFromJson_catalogValue (catalog : Text) (tables : List (Text × Text)) :
    catalogTablesFromJson (catalogValue catalog tables) = .ok tables := by
  have htables : (catalogValue catalog tables).get? "tables" = some (.arr (tables.map tableValue)) :=
    get?_record (by simp) (by simp)
  simp [catalogTablesFromJson, htables, List.filterMap_map, tableFromJson_tableValue]

end Latiq.PondNode
