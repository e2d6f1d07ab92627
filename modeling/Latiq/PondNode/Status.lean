import Latiq.AgentCore.Placement
import Latiq.Common.Error
import Latiq.Common.Trace

/-!
# Errors between nodes

An error leaves the owner of a pond as a gRPC status, whose details are the JSON form of its envelope, and becomes an
error again at the node that forwarded.

* `toStatus` — at the edge of the owner, which stamps the envelope with its trace.
* `statusToError` — at the node that forwarded: the whole envelope, where the details have one, else what the code of
  the status says.
* `statusToError_toStatus`, `stamp_stamp` — the caller gets the envelope of the owner, with the owner's stamp.
-/

namespace Latiq.PondNode

open RustStr Serde Latiq.Common Latiq.AgentCore

/-! ### Statuses -/

/-- `Code`, as far as the two sides use it. -/
inductive Code where
  | ok
  | cancelled
  | unknown
  | invalidArgument
  | deadlineExceeded
  | notFound
  | alreadyExists
  | failedPrecondition
  | internal
  | unavailable
  | unauthenticated
  deriving DecidableEq, Repr

/-- `Status`. -/
structure Status where
  code : Code
  message : Text
  details : Text
  deriving DecidableEq, Repr

/-- The printer and the reader of JSON, and what the reader says of a text, or of a value, that it cannot read. -/
structure Json where
  print : Value → Text
  parse : Text → Option Value
  complaint : Text → Text
  mismatch : Value → Text

/-- The reader gets back what the printer printed. -/
def Json.ReadsBack (json : Json) (v : Value) : Prop := json.parse (json.print v) = some v ∧ json.print v ≠ []

/-- The code of a kind. -/
def codeOf : ErrorKind → Code
  | .pondNotFound => .notFound
  | .nameConflict => .alreadyExists
  | .queryTimeout => .deadlineExceeded
  | .queryCancelled => .cancelled
  | .unauthenticated => .unauthenticated
  | .pondUnavailable | .capabilityUnavailable | .sourceUnavailable => .failedPrecondition
  | .catalogError => .invalidArgument
  | .storage | .internal => .internal
  | _ => .invalidArgument

/-- An envelope at the edge of a node: with the id of the trace, and with the span, unless it names one. -/
def stamp (t : TraceContext) (e : ErrorEnvelope) : ErrorEnvelope :=
  (e.withTraceId (some t.traceId)).withTraceparent (some t.traceparent)

/-- `to_status`. -/
def toStatus (json : Json) (t : TraceContext) (e : ErrorEnvelope) : Status :=
  let env := stamp t e
  ⟨codeOf env.kind, env.message, json.print (ErrorEnvelope.codec.encode env)⟩

/-! ### And back -/

/-- `AgentError::pond_not_found`. -/
def pondNotFound (pondRef : Text) : ErrorEnvelope :=
  .rendered .pondNotFound "Pond '{pond}' does not exist." (facts [("pond", .text pondRef)])

/-- `AgentError::name_conflict`. -/
def nameConflict (name : Text) : ErrorEnvelope :=
  .rendered .nameConflict "A pond named '{name}' already exists." (facts [("name", .text name)])

/-- `AgentError::internal`. -/
def internal (message : Text) : ErrorEnvelope := .forKind .internal message

/-- `unreachable_owner`. -/
def unreachableOwner (peer : Peer) (pond detail : Text) : ErrorEnvelope :=
  .rendered .pondUnavailable
    ("Pond '{pond}' is owned by node '{node_id}', which is not answering at {node_endpoint} " ++
      "({detail}). The pond's data is on that node; no other node can serve it.")
    (facts
      [("pond", .text pond), ("node_id", .text peer.nodeId), ("node_endpoint", .text peer.endpoint),
        ("detail", .text (trim detail))])

/-- What the code of a status says. -/
def errorOfCode (peer : Peer) (pond : Text) (s : Status) : ErrorEnvelope :=
  match s.code with
  | .notFound => pondNotFound s.message
  | .alreadyExists => nameConflict s.message
  | .unauthenticated => .forKind .unauthenticated s.message
  | .unavailable => unreachableOwner peer pond s.message
  | _ => internal s.message

/-- `status_to_error`. -/
def statusToError (json : Json) (peer : Peer) (pond : Text) (s : Status) : ErrorEnvelope :=
  if s.details ≠ [] then
    match (json.parse s.details).bind ErrorEnvelope.codec.decode with
    | some env => env
    | none => errorOfCode peer pond s
  else errorOfCode peer pond s

/-- **An envelope crosses whole**, with the stamp of the owner. -/
theorem statusToError_toStatus {json : Json} {t : TraceContext} {e : ErrorEnvelope}
    (h : json.ReadsBack (ErrorEnvelope.codec.encode (stamp t e))) (peer : Peer) (pond : Text) :
    statusToError json peer pond (toStatus json t e) = stamp t e := by
  obtain ⟨hparse, hne⟩ := h
  have hdetails : (toStatus json t e).details = json.print (ErrorEnvelope.codec.encode (stamp t e)) := rfl
  rw [statusToError, hdetails, if_pos hne, hparse, Option.bind_some, ErrorEnvelope.codec.decode_encode,
    ErrorEnvelope.codec_kept]
  rfl

/-- **A second stamp** of the same trace changes nothing. -/
theorem stamp_stamp {t u : TraceContext} (h : u.traceId = t.traceId) (e : ErrorEnvelope) :
    stamp u (stamp t e) = stamp t e := by
  cases ht : e.traceparent <;>
    simp [stamp, ErrorEnvelope.withTraceId, ErrorEnvelope.withTraceparent, h, ht]

/-- An envelope without the span that it names. -/
def spanless (e : ErrorEnvelope) : ErrorEnvelope := { e with traceparent := none }

/-- Stamps of one trace differ in the span only. -/
theorem spanless_stamp {t u : TraceContext} (h : u.traceId = t.traceId) (e : ErrorEnvelope) :
    spanless (stamp u e) = spanless (stamp t e) := by
  simp [spanless, stamp, ErrorEnvelope.withTraceId, ErrorEnvelope.withTraceparent, h]

end Latiq.PondNode
