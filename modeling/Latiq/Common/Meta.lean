import Latiq.Library.Serde
import Latiq.Library.RustStr

/-!
# The meta of a query

What every query response says about the statement that ran: its cost, the datasets it touched, and who ran it.

* `QueryMeta`, and the codec of its JSON form; `QueryMeta.codec_kept` says that the columns of the datasets are
  all that is lost in it.
-/

namespace Latiq.Common

open RustStr Serde

/-- `WarningKind`. -/
inductive WarningKind where
  | performance
  | portability
  | schemaHygiene
  | resultHygiene
  deriving DecidableEq, Repr

/-- The snake case of a variant. -/
def WarningKind.asStr : WarningKind → String
  | performance => "performance"
  | portability => "portability"
  | schemaHygiene => "schema_hygiene"
  | resultHygiene => "result_hygiene"

/-- `Warning`. -/
structure Warning where
  kind : WarningKind
  message : Text
  deriving DecidableEq, Repr

/-- `DatasetField`. -/
structure DatasetField where
  name : Text
  typeName : Text
  deriving DecidableEq, Repr

/-- `DatasetRef`: the columns are for the emitter of lineage, in the same process. -/
structure DatasetRef where
  ns : Option Text
  name : Text
  version : Option ℤ
  fields : List DatasetField
  deriving DecidableEq, Repr

/-- `DatasetRef::table`: a table in one of the node's own catalogs. -/
def DatasetRef.table (catalog schema table : Text) : DatasetRef :=
  ⟨none, catalog ++ '.' :: (schema ++ '.' :: table), none, []⟩

/-- `DatasetRef::external`: an external file or object. -/
def DatasetRef.external (uri : Text) : DatasetRef :=
  let (ns, name) :=
    match splitOnce "://".toList uri with
    | some (scheme, rest) =>
      if scheme = "file".toList then ("file".toList, rest)
      else
        match splitOnce ['/'] rest with
        | some (authority, path) => (scheme ++ "://".toList ++ authority, path)
        | none => (scheme ++ "://".toList ++ rest, uri)
    | none => ("file".toList, uri)
  ⟨some ns, name, none, []⟩

/-- `QueryMeta`. -/
structure QueryMeta where
  rows : ℕ := 0
  rowsAffected : ℕ := 0
  snapshotId : Option ℤ := none
  durationMs : ℕ := 0
  timeoutMs : ℕ := 0
  bytesScanned : ℕ := 0
  tablesTouched : List Text := []
  inputs : List DatasetRef := []
  outputs : List DatasetRef := []
  warnings : List Warning := []
  hint : Option Text := none
  servedBy : Text := []
  traceId : Text := []
  traceparent : Text := []
  deriving DecidableEq, Repr

/-- A dataset without its columns. -/
def DatasetRef.withoutFields (d : DatasetRef) : DatasetRef := { d with fields := [] }

/-- A meta whose datasets are without their columns. -/
def QueryMeta.withoutFields (m : QueryMeta) : QueryMeta :=
  { m with inputs := m.inputs.map DatasetRef.withoutFields, outputs := m.outputs.map DatasetRef.withoutFields }

/-! ### The JSON form -/

def WarningKind.codec : Codec WarningKind :=
  named asStr [performance, portability, schemaHygiene, resultHygiene] fun a => by cases a <;> simp [asStr]

@[simp] theorem WarningKind.codec_kept : WarningKind.codec.kept = id := rfl

/-- The fields of a warning. -/
def Warning.fields : Fields Warning :=
  .of (fun w => (w.kind, w.message)) (fun (kind, message) => ⟨kind, message⟩) <|
    (Fields.required "kind" WarningKind.codec).also <|
    Fields.required "message" text

def Warning.codec : Codec Warning := fields.codec (by decide)

@[simp] theorem Warning.codec_kept : Warning.codec.kept = id := by
  funext w
  simp [codec, fields]

/-- The fields of a dataset. -/
def DatasetRef.wire : Fields DatasetRef :=
  .of (fun d => (d.ns, d.name, d.version, d.fields)) (fun (ns, name, version, fields) => ⟨ns, name, version, fields⟩) <|
    (Fields.optional "namespace" text text_ne_null).also <|
    (Fields.required "name" text).also <|
    (Fields.optional "version" signed signed_ne_null).also <|
    Fields.skipped []

def DatasetRef.codec : Codec DatasetRef := wire.codec (by decide)

@[simp] theorem DatasetRef.codec_kept : DatasetRef.codec.kept = withoutFields := by
  funext d
  simp [codec, wire, withoutFields]

/-- The fields of a meta. -/
def QueryMeta.fields : Fields QueryMeta :=
  .of
    (fun m => (m.rows, m.rowsAffected, m.snapshotId, m.durationMs, m.timeoutMs, m.bytesScanned, m.tablesTouched,
      m.inputs, m.outputs, m.warnings, m.hint, m.servedBy, m.traceId, m.traceparent))
    (fun (rows, rowsAffected, snapshotId, durationMs, timeoutMs, bytesScanned, tablesTouched, inputs, outputs, warnings,
        hint, servedBy, traceId, traceparent) =>
      ⟨rows, rowsAffected, snapshotId, durationMs, timeoutMs, bytesScanned, tablesTouched, inputs, outputs, warnings,
        hint, servedBy, traceId, traceparent⟩) <|
    (Fields.required "rows" unsigned).also <|
    (Fields.required "rows_affected" unsigned).also <|
    (Fields.optional "snapshot_id" signed signed_ne_null).also <|
    (Fields.required "duration_ms" unsigned).also <|
    (Fields.defaulted "timeout_ms" unsigned 0 (· == 0) (by simp)).also <|
    (Fields.required "bytes_scanned" unsigned).also <|
    (Fields.defaulted "tables_touched" (list text) [] List.isEmpty (by simp)).also <|
    (Fields.defaulted "inputs" (list DatasetRef.codec) [] List.isEmpty (by simp)).also <|
    (Fields.defaulted "outputs" (list DatasetRef.codec) [] List.isEmpty (by simp)).also <|
    (Fields.defaulted "warnings" (list Warning.codec) [] List.isEmpty (by simp)).also <|
    (Fields.optional "hint" text text_ne_null).also <|
    (Fields.defaulted "served_by" text [] List.isEmpty (by simp)).also <|
    (Fields.defaulted "trace_id" text [] List.isEmpty (by simp)).also <|
    Fields.defaulted "traceparent" text [] List.isEmpty (by simp)

def QueryMeta.codec : Codec QueryMeta := fields.codec (by decide)

/-- **Nothing of a meta** is lost in its JSON form but the columns of its datasets. -/
@[simp] theorem QueryMeta.codec_kept : QueryMeta.codec.kept = withoutFields := by
  funext m
  simp [codec, fields, withoutFields]
  exact ⟨rfl, rfl, rfl, rfl⟩

end Latiq.Common
