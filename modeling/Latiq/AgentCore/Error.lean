import Latiq.Common.Error
import Latiq.EngineDuckdb.Errclass

/-!
# The errors of the agent core

`AgentError` is an envelope, and an engine's error becomes one through a table: the kind and the next step are the
core's, the sentence is the engine's own.

* `agentError` — `From<EngineError>`.
* `Deadline.classify` — a deadline's expiry is told from somebody's cancel before the table is read.
* `resultCapExceeded`, `resultCapExceededUnknown` — the two ways over the inline cap.
-/

namespace Latiq.AgentCore

open RustStr (Text)
open Latiq.Common
open Latiq.EngineDuckdb (EngineError)

/-! ### From the engine's errors -/

/-- `AgentError::internal`. -/
def internalError (message : Text) : ErrorEnvelope := .forKind .internal message

/-- `AgentError::storage`. -/
def storageError (message : Text) : ErrorEnvelope := .forKind .storage message

/-- `AgentError::pond_unavailable`. -/
def pondUnavailable (pondRef : Text) : ErrorEnvelope :=
  .rendered .pondUnavailable
    ("Pond '{pond}' exists, but the node that owns it is not registered with this " ++
      "deployment — no node is currently serving it, and this node does not hold its data.")
    (facts [("pond", .text pondRef)])

/-- `From<EngineError>`. -/
def agentError : EngineError → ErrorEnvelope
  | .readOnlyViolation => .forKind .readOnlyViolation "read_query received a statement that is not read-only.".toList
  | .cancelled => .forKind .queryCancelled "The query was cancelled.".toList
  | .timeout => .forKind .queryTimeout "The query exceeded the timeout.".toList
  | .parse m => .forKind .parseError m
  | .catalog m => .forKind .catalogError m
  | .conversion m =>
    .new .invalidValue m
      ("A value does not match the type it is being used as. Check the column types " ++
        "(read_query \"DESCRIBE <table>\" or describe_pond), then supply a value of that " ++
        "type or CAST it explicitly — e.g. CAST('7' AS INTEGER). Quoted text is never " ++
        "coerced into a numeric column just because it looks numeric.").toList
      "latiq://dialect".toList
  | .constraint m =>
    .new .invalidValue m
      ("The value is the right type but breaks a rule on the table (primary key, unique, " ++
        "not null, or check). Read the conflicting rows first — read_query \"SELECT * FROM " ++
        "<table> WHERE <key> = <value>\" — then either correct the value, UPDATE the " ++
        "existing row instead of inserting, or use INSERT OR REPLACE / ON CONFLICT.").toList
      "latiq://dialect".toList
  | .sourceIo m => .forKind .sourceUnavailable m
  | .unsupported m (some feature) =>
    { ErrorEnvelope.new .unsupportedFeature m
        ("This pond's engine does not support ".toList ++ feature ++
          (" — remove that from the " ++
            "statement and re-send; the statement as written can never succeed. A " ++
            "DuckLake pond has no PRIMARY KEY/UNIQUE or CHECK constraints, no " ++
            "indexes, no sequences and no generated columns: declare the columns and " ++
            "their types, and check uniqueness with a query (read_query \"SELECT id, " ++
            "count(*) FROM <table> GROUP BY id HAVING count(*) > 1\") instead of " ++
            "declaring a constraint.").toList)
        ErrorKind.unsupportedFeature.defaultSee.toList with
      facts := facts [("feature", .text feature)] }
  | .unsupported m none => .forKind .unsupportedFeature m
  | .capabilityUnavailable m capability =>
    { ErrorEnvelope.forKind .capabilityUnavailable m with facts := facts [("capability", .text capability)] }
  | .invalidInput m =>
    .new .invalidValue m
      ("A value or argument in the statement is not acceptable to the engine — out of " ++
        "range for its type, or invalid for the function or file it was passed to. The " ++
        "message names it. Fix that value and re-send: a wider type for an arithmetic " ++
        "overflow (CAST the operands to BIGINT/HUGEINT or aggregate differently), a " ++
        "correct format string, a path that really holds the format you are reading.").toList
      "latiq://dialect".toList
  | .missingParameter m => .forKind .missingArgument m
  | .unsupportedParameter m => .forKind .invalidValue m
  | .transactionControl m =>
    .new .unsupportedFeature m
      ("Latiq owns the transaction, so a statement must not contain BEGIN / COMMIT / " ++
        "ROLLBACK / START TRANSACTION — send plain statements and Latiq commits them " ++
        "together as one attributed snapshot. Your own transaction control ended Latiq's " ++
        "bracket, so part of the statement may ALREADY have been committed: check with " ++
        "read_query \"SELECT count(*) FROM <table>\" before re-sending, then re-send only " ++
        "what is missing, without the transaction control.").toList
      "latiq://dialect".toList
  | .engine m => internalError ("engine error: ".toList ++ m)

/-! ### The deadline -/

/-- `AgentError::query_timeout`. -/
def queryTimeout (effectiveMs maxMs : ℕ) : ErrorEnvelope :=
  .renderedWith .queryTimeout
    ("Query stopped after {timeout_ms} ms — the timeout in effect for this request. This " ++
      "node allows up to {max_timeout_ms} ms.")
    (facts [("timeout_ms", .number effectiveMs), ("max_timeout_ms", .number maxMs)])
    (if maxMs ≤ effectiveMs then
      "This ran at the node's maximum, so a larger timeout_ms is not available. Narrow the " ++
        "query — add a WHERE on a selective column, a LIMIT, or fewer columns — or aggregate " ++
        "server-side (GROUP BY/count/sum) instead of scanning. If the work is genuinely this " ++
        "large, it is too big for this pond's tier: ask an operator to re-tier the pond."
    else
      "Retry with a larger timeout_ms (this node allows up to {max_timeout_ms}), or narrow " ++
        "the query — add a WHERE on a selective column, a LIMIT, or fewer columns — or " ++
        "aggregate server-side (GROUP BY/count/sum). If it still times out at " ++
        "{max_timeout_ms} ms, the query is too large for this pond's tier: ask an operator to " ++
        "re-tier it.")
    ErrorKind.queryTimeout.defaultSee

/-- An armed `Deadline`, when its operation is over. -/
structure Deadline where
  effectiveMs : ℕ
  maxMs : ℕ
  expired : Bool
  deriving DecidableEq, Repr

/-- `Deadline::classify`. -/
def Deadline.classify (d : Deadline) (e : EngineError) : ErrorEnvelope :=
  if e = .cancelled ∧ d.expired then queryTimeout d.effectiveMs d.maxMs else agentError e

/-! ### The inline cap -/

/-- `AgentError::result_cap_exceeded`: the true total. -/
def resultCapExceeded (rows cap : ℕ) : ErrorEnvelope :=
  .rendered .resultCapExceeded "Result has {rows} rows, over the inline cap of {cap}."
    (facts [("rows", .number rows), ("cap", .number cap)])

/-- `AgentError::result_cap_exceeded_unknown`: the stream was left at the cap. -/
def resultCapExceededUnknown (cap : ℕ) : ErrorEnvelope :=
  .rendered .resultCapExceeded
    ("Result has more than {cap} rows, over the inline cap of {cap}. Collection stopped at " ++
      "the cap, so the exact row count is not known — use `SELECT count(*)` or " ++
      "explain_query's `estimated_rows` to size it.")
    (facts [("cap", .number cap)])

end Latiq.AgentCore
