import Latiq.Library.JsonCodec
import Latiq.Library.RustStr

/-!
# The error envelope

The one shape of an error on every surface: a kind from a closed list, a sentence, the next step, where to read
more, and what a client can branch on without reading prose.

* `ErrorKind` — the kinds, with the guidance that each has by default.
* `renderFacts` — a sentence from its template and its facts.
* `ErrorEnvelope`, and the codec of its JSON form; `ErrorEnvelope.codec_kept` says that nothing of it is lost.
-/

namespace Latiq.Common

open RustStr Serde

/-! ### Kinds -/

/-- `ErrorKind`. -/
inductive ErrorKind where
  | pondNotFound
  | datasetNotFound
  | nameConflict
  | catalogError
  | parseError
  | invalidValue
  | missingArgument
  | writeToReservedSchema
  | resultCapExceeded
  | readOnlyViolation
  | unsupportedFeature
  | capabilityUnavailable
  | queryTimeout
  | queryCancelled
  | unauthenticated
  | pondUnavailable
  | sourceUnavailable
  | storage
  | internal
  deriving DecidableEq, Repr

/-- `Audience`. -/
inductive Audience where
  | agent
  | operator
  deriving DecidableEq, Repr

/-- `Retryable`. -/
inductive Retryable where
  | never
  | asIs
  | afterChange
  | afterProvisioning
  deriving DecidableEq, Repr

/-- `Audience::as_str`. -/
def Audience.asStr : Audience → String
  | agent => "agent"
  | operator => "operator"

/-- `Retryable::as_str`. -/
def Retryable.asStr : Retryable → String
  | never => "never"
  | asIs => "as_is"
  | afterChange => "after_change"
  | afterProvisioning => "after_provisioning"

namespace ErrorKind

/-- `ALL`. -/
def all : List ErrorKind :=
  [pondNotFound, datasetNotFound, nameConflict, catalogError, parseError, invalidValue, missingArgument,
    writeToReservedSchema, resultCapExceeded, readOnlyViolation, unsupportedFeature, capabilityUnavailable,
    queryTimeout, queryCancelled, unauthenticated, pondUnavailable, sourceUnavailable, storage, internal]

/-- `as_str`. -/
def asStr : ErrorKind → String
  | pondNotFound => "pond_not_found"
  | datasetNotFound => "dataset_not_found"
  | nameConflict => "name_conflict"
  | catalogError => "catalog_error"
  | parseError => "parse_error"
  | invalidValue => "invalid_value"
  | missingArgument => "missing_argument"
  | writeToReservedSchema => "write_to_reserved_schema"
  | resultCapExceeded => "result_cap_exceeded"
  | readOnlyViolation => "read_only_violation"
  | unsupportedFeature => "unsupported_feature"
  | capabilityUnavailable => "capability_unavailable"
  | queryTimeout => "query_timeout"
  | queryCancelled => "query_cancelled"
  | unauthenticated => "unauthenticated"
  | pondUnavailable => "pond_unavailable"
  | sourceUnavailable => "source_unavailable"
  | storage => "storage"
  | internal => "internal"

/-- `default_suggest`. -/
def defaultSuggest : ErrorKind → String
  | pondNotFound => "Call list_ponds to see available ponds, or allocate_pond to create one."
  | datasetNotFound => "Call list_datasets to see what's available."
  | nameConflict => "Choose a different name, or omit name to let Latiq generate one."
  | parseError => "Check the SQL syntax against the supported dialect."
  | catalogError =>
    "Look up what the pond actually has before retrying: describe_pond, or read_query " ++
    "\"SHOW TABLES\" / \"DESCRIBE <table>\" / \"SELECT * FROM " ++
    "information_schema.columns\". Then use a name that exists — or create it with " ++
    "write_query first. If the name already exists, pick another or use CREATE OR " ++
    "REPLACE / CREATE TABLE IF NOT EXISTS."
  | invalidValue => "Fix the value and retry."
  | missingArgument => "Provide the required argument and retry."
  | writeToReservedSchema => "Write to your own tables/schema, not a reserved one."
  | resultCapExceeded =>
    "Narrow with WHERE/LIMIT, aggregate server-side (GROUP BY/count/sum), or " ++
    "materialize with CREATE TABLE AS SELECT. Call explain_query on the statement " ++
    "first: its `estimated_rows` is how many rows this would return, so you can see " ++
    "whether narrowing is enough before spending another attempt on it."
  | readOnlyViolation => "Use write_query for INSERT/UPDATE/DELETE/DDL; read_query is for SELECT."
  | unsupportedFeature =>
    "Remove the clause the message names and re-send — this engine does not implement " ++
    "it, so the identical statement can never succeed. A DuckLake pond has no PRIMARY " ++
    "KEY/UNIQUE or CHECK constraints, no indexes, no sequences and no generated " ++
    "columns: declare the columns and their types, and enforce uniqueness with a query " ++
    "(read_query \"SELECT id, count(*) FROM t GROUP BY id HAVING count(*) > 1\") " ++
    "instead of a constraint. See latiq://dialect."
  | capabilityUnavailable =>
    "Stop and report this — you cannot provision anything from here, and the identical " ++
    "call will keep failing until somebody does. Tell whoever is orchestrating you (a " ++
    "human operator, or the agent that dispatched you) which capability is missing: it " ++
    "is in `facts.capability`, and the message names it too. An operator installs a " ++
    "missing DuckDB extension by running `latiq warm-extensions` on the node with " ++
    "network access and restarting it — the container image bakes the same step in at " ++
    "build time. Send this call again only once you are told the capability is there. " ++
    "Meanwhile you can keep working on anything that does not need it: a pond " ++
    "allocated without that extension still reads CSV/Parquet/JSON (latiq://dialect " ++
    "says what is always loaded)."
  | queryTimeout =>
    "Retry with a larger timeout_ms (up to the node's maximum), or narrow the query " ++
    "(WHERE/LIMIT) or aggregate server-side. explain_query shows which table is " ++
    "scanned and how big it is estimated to be — it predicts no duration, but the " ++
    "largest full_scan in `scan_operations` is what to fix."
  | queryCancelled => "Re-issue the query if you still need the result."
  | unauthenticated => "Obtain a fresh access token for this deployment and retry with it."
  | pondUnavailable =>
    "Ask an operator to bring the pond's node back (latiq node list shows which are " ++
    "registered); if it is gone for good, `latiq pond forget <pond> --confirm` drops " ++
    "the registry record — the data on that node is NOT deleted."
  | sourceUnavailable =>
    "Check the path or URL in the statement — spelling, host, bucket, and whether it " ++
    "needs credentials this deployment does not have. It must be reachable from the " ++
    "node, whose network is not yours. One retry is worth it if the " ++
    "failure could be a transient network fault; a second identical failure means the " ++
    "source, not the query. To work offline of it, load the data into the pond first " ++
    "(load_dataset / pull_catalog)."
  | storage | internal => "Retry; if it persists, report to your operator."

/-- `audience`. -/
def audience : ErrorKind → Audience
  | pondUnavailable | capabilityUnavailable | storage | internal => .operator
  | _ => .agent

/-- `retryable`. -/
def retryable : ErrorKind → Retryable
  | queryTimeout | queryCancelled | sourceUnavailable | storage | internal => .asIs
  | readOnlyViolation | pondUnavailable => .never
  | capabilityUnavailable => .afterProvisioning
  | _ => .afterChange

/-- `default_see`. -/
def defaultSee : ErrorKind → String
  | pondNotFound => "latiq://troubleshooting/pond-not-found"
  | datasetNotFound => "latiq://datasets"
  | resultCapExceeded => "latiq://troubleshooting/large-results"
  | readOnlyViolation | parseError | unsupportedFeature | writeToReservedSchema => "latiq://dialect"
  | queryTimeout => "latiq://troubleshooting/timeouts"
  | catalogError => "latiq://troubleshooting/catalog-error"
  | sourceUnavailable => "latiq://troubleshooting/source-unavailable"
  | pondUnavailable => "latiq://troubleshooting/pond-unavailable"
  | capabilityUnavailable => "latiq://troubleshooting/capability-unavailable"
  | nameConflict | invalidValue | missingArgument => "latiq://guidance"
  | unauthenticated => "latiq://troubleshooting/unauthenticated"
  | queryCancelled => "latiq://troubleshooting/timeouts"
  | storage | internal => "latiq://troubleshooting/internal"

end ErrorKind

/-! ### Facts -/

/-- `Fact`: one value behind a message. -/
inductive Fact where
  | number (n : ℕ)
  | text (s : Text)
  | flag (b : Bool)
  deriving DecidableEq, Repr

/-- `to_string`. -/
def Fact.display : Fact → Text
  | number n => Nat.toDigits 10 n
  | text s => s
  | flag b => if b then "true".toList else "false".toList

/-- `Facts`: a map, as its entries by key. -/
abbrev Facts := List (String × Fact)

/-- `facts!`. -/
def facts (entries : List (String × Fact)) : Facts := entries.foldl (fun m e => insert e.1 e.2 m) []

/-- The fact of a placeholder; a placeholder without one stays as it is. -/
def fillPlaceholder (fs : Facts) (key : Text) : Text :=
  match fs.lookup (String.ofList key) with
  | some fact => fact.display
  | none => '{' :: (key ++ ['}'])

/-- `render_facts`, with what was read of the placeholder that is open. -/
def renderFrom (fs : Facts) : Option Text → Text → Text
  | none, [] => []
  | none, c :: rest => if c = '{' then renderFrom fs (some []) rest else c :: renderFrom fs none rest
  | some key, [] => '{' :: key
  | some key, c :: rest =>
    if c = '}' then fillPlaceholder fs key ++ renderFrom fs none rest else renderFrom fs (some (key ++ [c])) rest

/-- `render_facts`. -/
def renderFacts (template : String) (fs : Facts) : Text := renderFrom fs none template.toList

/-! ### Envelopes -/

/-- `Location`. -/
structure Location where
  line : ℕ
  column : ℕ
  byte : ℕ
  deriving DecidableEq, Repr

/-- `ErrorEnvelope`. -/
structure ErrorEnvelope where
  kind : ErrorKind
  message : Text
  location : Option Location
  suggest : Text
  see : Text
  audience : Audience
  retryable : Retryable
  facts : Facts
  traceId : Option Text
  traceparent : Option Text
  deriving DecidableEq, Repr

namespace ErrorEnvelope

/-- `new`. -/
def new (kind : ErrorKind) (message suggest see : Text) : ErrorEnvelope :=
  ⟨kind, message, none, suggest, see, kind.audience, kind.retryable, [], none, none⟩

/-- `for_kind`. -/
def forKind (kind : ErrorKind) (message : Text) : ErrorEnvelope :=
  new kind message kind.defaultSuggest.toList kind.defaultSee.toList

/-- `rendered_with`. -/
def renderedWith (kind : ErrorKind) (template : String) (fs : Facts) (suggest see : String) : ErrorEnvelope :=
  { new kind (renderFacts template fs) (renderFacts suggest fs) see.toList with facts := fs }

/-- `rendered`. -/
def rendered (kind : ErrorKind) (template : String) (fs : Facts) : ErrorEnvelope :=
  renderedWith kind template fs kind.defaultSuggest kind.defaultSee

/-- `with_trace_id`. -/
def withTraceId (e : ErrorEnvelope) (traceId : Option Text) : ErrorEnvelope := { e with traceId }

/-- `with_traceparent`: one that is there is kept. -/
def withTraceparent (e : ErrorEnvelope) (traceparent : Option Text) : ErrorEnvelope :=
  { e with traceparent := e.traceparent.or traceparent }

end ErrorEnvelope

/-! ### The JSON form -/

def ErrorKind.codec : Codec ErrorKind := named asStr all fun a => by cases a <;> simp [all, asStr]

def Audience.codec : Codec Audience := named asStr [agent, operator] fun a => by cases a <;> simp [asStr]

def Retryable.codec : Codec Retryable :=
  named asStr [never, asIs, afterChange, afterProvisioning] fun a => by cases a <;> simp [asStr]

/-- A fact is written as its value, and read as the first of its forms that fits. -/
def Fact.codec : Codec Fact where
  encode
    | number n => .int n
    | text s => .str s
    | flag b => .bool b
  decode
    | .int (.ofNat n) => some (number n)
    | .str s => some (text s)
    | .bool b => some (flag b)
    | _ => none
  kept := id
  decode_encode a := by cases a <;> rfl

@[simp] theorem ErrorKind.codec_kept : ErrorKind.codec.kept = id := rfl

@[simp] theorem Audience.codec_kept : Audience.codec.kept = id := rfl

@[simp] theorem Retryable.codec_kept : Retryable.codec.kept = id := rfl

@[simp] theorem Fact.codec_kept : Fact.codec.kept = id := rfl

/-- The fields of a location. -/
def Location.fields : Fields Location :=
  .of (fun l => (l.line, l.column, l.byte)) (fun (line, column, byte) => ⟨line, column, byte⟩) <|
    (Fields.required "line" unsigned).also <|
    (Fields.required "column" unsigned).also <|
    Fields.required "byte" unsigned

def Location.codec : Codec Location := fields.codec (by decide)

theorem Location.codec_ne_null (l : Location) : Location.codec.encode l ≠ .null := Fields.codec_ne_null _ _ l

@[simp] theorem Location.codec_kept : Location.codec.kept = id := by
  funext l
  simp [codec, fields]

/-- The fields of an envelope: all are written but what is absent. -/
def ErrorEnvelope.fields : Fields ErrorEnvelope :=
  .of
    (fun e => (e.kind, e.message, e.location, e.suggest, e.see, e.audience, e.retryable, e.facts, e.traceId,
      e.traceparent))
    (fun (kind, message, location, suggest, see, audience, retryable, facts, traceId, traceparent) =>
      ⟨kind, message, location, suggest, see, audience, retryable, facts, traceId, traceparent⟩) <|
    (Fields.required "kind" ErrorKind.codec).also <|
    (Fields.required "message" text).also <|
    (Fields.optional "location" Location.codec Location.codec_ne_null).also <|
    (Fields.required "suggest" text).also <|
    (Fields.required "see" text).also <|
    (Fields.required "audience" Audience.codec).also <|
    (Fields.required "retryable" Retryable.codec).also <|
    (Fields.defaulted "facts" (map Fact.codec) [] List.isEmpty (by simp [map])).also <|
    (Fields.optional "trace_id" text text_ne_null).also <|
    Fields.optional "traceparent" text text_ne_null

def ErrorEnvelope.codec : Codec ErrorEnvelope := fields.codec (by decide)

/-- **Nothing of an envelope** is lost in its JSON form. -/
@[simp] theorem ErrorEnvelope.codec_kept : ErrorEnvelope.codec.kept = id := by
  funext e
  simp [codec, fields]

theorem writes_fact : Fact.codec.Writes := fun f => by cases f <;> trivial

theorem writes_location : Location.codec.Writes := by
  refine Fields.Writes.codec (.of (.also ?_ <| .also ?_ ?_) _ _) _
  all_goals exact Fields.writes_required _ writes_unsigned

theorem writes_errorEnvelope : ErrorEnvelope.codec.Writes := by
  refine Fields.Writes.codec (.of (.also ?_ <| .also ?_ <| .also ?_ <| .also ?_ <| .also ?_ <| .also ?_ <| .also ?_ <|
    .also ?_ <| .also ?_ ?_) _ _) _
  · exact Fields.writes_required _ (writes_named _)
  · exact Fields.writes_required _ writes_text
  · exact Fields.writes_optional _ writes_location
  · exact Fields.writes_required _ writes_text
  · exact Fields.writes_required _ writes_text
  · exact Fields.writes_required _ (writes_named _)
  · exact Fields.writes_required _ (writes_named _)
  · exact Fields.writes_defaulted _ (writes_map writes_fact)
  · exact Fields.writes_optional _ writes_text
  · exact Fields.writes_optional _ writes_text

end Latiq.Common
