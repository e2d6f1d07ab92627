import Latiq.AgentCore.Stopping
import Latiq.PondNode.ArrowChunks
import Latiq.PondNode.Wire
import Mathlib.Algebra.Group.Nat.Defs

/-!
# Forwarding an operation

A node that does not own a pond runs an operation on the node that does, and hands its answer on. Both nodes run the
same core: what the one that took the call makes of the operation before it forwards, the owner would make of it too,
and the owner answers the hop as it answers a caller of its own.

* `Owner` — what the core of the owner makes of each operation, and `Owner.answerLocal`, what a caller on that node
  gets.
* `serve`, `serveStream` — the handlers of the owner; `forward` — the operation on the other node.
* `forward_transparent` — **the answers agree**, apart from the span: all of them but the columns of the datasets, and
  what the meta of a read says besides its rows, who served it and its trace, where the read went as a stream.
-/

namespace Latiq.PondNode

open RustStr Serde Latiq.Common Latiq.AgentCore

/-! ### Operations and answers -/

/-- The operations that a node forwards, on one pond. -/
inductive Op where
  /-- `read_query_with`. -/
  | read (sql : Text) (timeoutMs : Option ℕ)
  /-- `read_collected_with`. -/
  | readCollected (sql : Text) (timeoutMs : Option ℕ)
  | readArrow (sql : Text) (timeoutMs : Option ℕ)
  | write (sql : Text) (timeoutMs : Option ℕ)
  | explain (sql : Text)
  | describe
  | dropPond (confirm : Bool)
  | materializePond
  | getLineage (limit : ℕ) (since before : Option Text)
  | catalogPull (catalog query : Text) (params : List (Text × Text))
  | catalogDescribe (catalog : Text) (params : List (Text × Text))
  deriving DecidableEq, Repr

/-- What an operation returns. -/
inductive Answer (S B : Type) where
  | query (qr : QueryResult)
  | stream (read : ReadStream S B)
  | explained (r : ExplainResult)
  | described (d : DescribeResult)
  | done
  | page (p : LineagePage)
  | pulled (p : PullResult)
  | tables (ts : List (Text × Text))

variable {S B : Type}

/-- An answer at the edge of a node: its errors are stamped. -/
def answer (t : TraceContext) : Except ErrorEnvelope (Answer S B) → Except ErrorEnvelope (Answer S B)
  | .error e => .error (stamp t e)
  | .ok (.stream read) => .ok (.stream (read.stamped t))
  | .ok a => .ok a

/-! ### Collecting a read -/

/-- What the core makes of an Arrow schema and of the batches: the names of the columns, and the rows as JSON. -/
structure Arrow (S B : Type) where
  columns : S → List Text
  /-- `append_batch_rows`. -/
  cells : List Text → B → Except ErrorEnvelope (List (List Value))
  hasRows : B → Bool
  cells_rowless : ∀ columns b, hasRows b = false → cells columns b = .ok []

/-- `inline_row_cap`. -/
def inlineRowCap : ℕ := 10000

/-- `AgentError::result_cap_exceeded_unknown`. -/
def resultCapExceededUnknown (cap : ℕ) : ErrorEnvelope :=
  .rendered .resultCapExceeded
    ("Result has more than {cap} rows, over the inline cap of {cap}. Collection stopped at " ++
      "the cap, so the exact row count is not known — use `SELECT count(*)` or " ++
      "explain_query's `estimated_rows` to size it.")
    (facts [("cap", .number cap)])

/-- The rows of the batches, up to the cap, with those that were collected before. -/
def collectRows (arrow : Arrow S B) (columns : List Text) (ended : Option ErrorEnvelope) :
    List (List Value) → List B → Except ErrorEnvelope (List (List Value))
  | rows, [] =>
    match ended with
    | some e => .error e
    | none => .ok rows
  | rows, b :: batches =>
    match arrow.cells columns b with
    | .error e => .error e
    | .ok more =>
      if inlineRowCap < (rows ++ more).length then .error (resultCapExceededUnknown inlineRowCap)
      else collectRows arrow columns ended (rows ++ more) batches

/-- `collect_stream`: the meta of the engine, or an empty one, with what this node knows of the read. -/
def collectStream (arrow : Arrow S B) (t : TraceContext) (read : ReadStream S B) : Except ErrorEnvelope QueryResult :=
  let columns := arrow.columns read.schema
  (collectRows arrow columns read.ended [] read.batches).map fun rows =>
    ⟨columns, rows,
      { read.meta_.getD {} with
        rows := rows.length
        servedBy := read.servedBy
        traceId := t.traceId
        traceparent := read.traceparent }⟩

/-! ### The owner -/

/-- The core of a pond's owner, from the point on at which an operation is its own; the timeouts are those in effect. -/
structure Owner (S B : Type) where
  timeouts : QueryTimeouts
  readQuery : TraceContext → Text → ℕ → Except ErrorEnvelope QueryResult
  readArrow : TraceContext → Text → ℕ → Except ErrorEnvelope (ReadStream S B)
  write : TraceContext → Text → ℕ → Except ErrorEnvelope QueryResult
  explain : Text → Except ErrorEnvelope ExplainResult
  describe : Except ErrorEnvelope DescribeResult
  dropPond : Except ErrorEnvelope Unit
  materializePond : Except ErrorEnvelope Unit
  getLineage : ℕ → Option Text → Option Text → Except ErrorEnvelope LineagePage
  catalogPull : Text → Text → List (Text × Text) → Except ErrorEnvelope PullResult
  catalogDescribe : Text → List (Text × Text) → Except ErrorEnvelope (List (Text × Text))

/-- `MAX_LIMIT`. -/
def maxLimit : ℕ := 500

/-- The refusal of a page without events. -/
def limitRefused : ErrorEnvelope :=
  .renderedWith .invalidValue "`limit` must be at least 1." (facts [("max_limit", .number maxLimit)])
    ("Omit `limit` for the default page, or pass a positive count (clamped to " ++
      "{max_limit}, and the page reports the value applied as `limit_applied`).")
    "latiq://recipes/lineage"

/-- The refusal of a drop that is not confirmed. -/
def confirmMissing (pond : Text) : ErrorEnvelope :=
  .rendered .missingArgument "drop_pond deletes pond '{pond}' and all its data; set confirm=true to proceed"
    (facts [("pond", .text pond)])

/-- What the core makes of an operation before it decides where it runs. -/
def enter (pond : Text) : Op → Except ErrorEnvelope Op
  | .dropPond false => .error (confirmMissing pond)
  | .getLineage limit since before =>
    if limit = 0 then .error limitRefused else .ok (.getLineage (min limit maxLimit) since before)
  | op => .ok op

/-- The operations that go over the hop as a stream. -/
def Op.streamed : Op → Bool
  | .readCollected .. | .readArrow .. => true
  | _ => false

/-- The operation as it goes on from there. -/
def Op.clamped : Op → Op
  | .getLineage limit since before => .getLineage (min limit maxLimit) since before
  | op => op

/-- The operation on the node that owns the pond. -/
def Owner.perform (owner : Owner S B) (arrow : Arrow S B) (t : TraceContext) : Op → Except ErrorEnvelope (Answer S B)
  | .read sql timeoutMs => (owner.readQuery t sql (owner.timeouts.effective timeoutMs)).map .query
  | .readCollected sql timeoutMs =>
    ((owner.readArrow t sql (owner.timeouts.effective timeoutMs)).bind (collectStream arrow t)).map .query
  | .readArrow sql timeoutMs => (owner.readArrow t sql (owner.timeouts.effective timeoutMs)).map .stream
  | .write sql timeoutMs => (owner.write t sql (owner.timeouts.effective timeoutMs)).map .query
  | .explain sql => (owner.explain sql).map .explained
  | .describe => owner.describe.map .described
  | .dropPond _ => owner.dropPond.map fun _ => .done
  | .materializePond => owner.materializePond.map fun _ => .done
  | .getLineage limit since before => (owner.getLineage limit since before).map .page
  | .catalogPull catalog query params => (owner.catalogPull catalog query params).map .pulled
  | .catalogDescribe catalog params => (owner.catalogDescribe catalog params).map .tables

/-- **What a caller on the owner gets.** -/
def Owner.answerLocal (owner : Owner S B) (arrow : Arrow S B) (t : TraceContext) (pond : Text) (op : Op) :
    Except ErrorEnvelope (Answer S B) :=
  answer t ((enter pond op).bind (owner.perform arrow t))

/-! ### The hop -/

/-- `""` on the wire means absent. -/
def nonEmpty (s : Option Text) : Option Text := s.filter (· ≠ [])

/-- What the Data service of the owner runs for an operation that comes over the hop: a buffered read is collected there,
and no timeout is the zero that means the default. -/
def Op.overTheHop : Op → Op
  | .read sql timeoutMs => .readCollected sql (some (timeoutMs.getD 0))
  | .write sql timeoutMs => .write sql (some (timeoutMs.getD 0))
  | .getLineage limit since before => .getLineage (min limit (2 ^ 32 - 1)) (nonEmpty since) (nonEmpty before)
  | op => op

/-- The JSON of an answer, where it has one. -/
def valueOf (op : Op) : Answer S B → Option Value
  | .query qr => some (queryValue qr)
  | .explained r => some (ExplainResult.codec.encode r)
  | .described d => some (DescribeResult.codec.encode d)
  | .page p => some (LineagePage.codec.encode p)
  | .pulled p => some (PullResult.codec.encode p)
  | .tables ts =>
    match op with
    | .catalogDescribe catalog _ => some (catalogValue catalog ts)
    | _ => none
  | .stream _ | .done => none

/-- A handler of the Data service. -/
def serve (json : Json) (owner : Owner S B) (arrow : Arrow S B) (t : TraceContext) (pond : Text) (op : Op) :
    Except Status Text :=
  match (enter pond op).bind (owner.perform arrow t) with
  | .error e => .error (toStatus json t e)
  | .ok a => .ok ((valueOf op a).elim [] json.print)

/-- The handler of the Stream service. -/
def serveStream {hasRows : B → Bool} (json : Json) (ipc : Ipc S B hasRows) (owner : Owner S B) (t : TraceContext)
    (sql : Text) (timeoutMs : Option ℕ) : Except Status (List (ArrowChunk ipc.Byte) × Option Status) :=
  match owner.readArrow t sql (owner.timeouts.effective timeoutMs) with
  | .error e => .error (toStatus json t e)
  | .ok read => .ok (encodeToChunks json ipc t read)

/-- The way to another node: what the dial says, where it fails, and what arrives of a reply. -/
structure Link (Byte : Type) where
  dial : Option Text
  unary : Except Status Text → Except Status Text
  streamed : Except Status (List (ArrowChunk Byte) × Option Status) → Except Status (List (ArrowChunk Byte) × Option Status)

/-- `parse_json`. -/
def parseJson (json : Json) (reply : Text) : Except ErrorEnvelope Value :=
  match json.parse reply with
  | some v => .ok v
  | none => .error (internal ("forward decode json: ".toList ++ json.complaint reply))

/-- A result that is read by its codec. -/
def readResult {α : Type} (json : Json) (what : String) (c : Codec α) (v : Value) : Except ErrorEnvelope α :=
  match c.decode v with
  | some a => .ok a
  | none => .error (internal ("forward decode ".toList ++ what.toList ++ ": ".toList ++ json.mismatch v))

/-- What the node makes of a reply. -/
def readReply (json : Json) (op : Op) (reply : Text) : Except ErrorEnvelope (Answer S B) :=
  match op with
  | .read .. | .readCollected .. | .write .. =>
    ((parseJson json reply).bind (queryResultFromJson json.mismatch)).map .query
  | .explain _ => ((parseJson json reply).bind (readResult json "explain" ExplainResult.codec)).map .explained
  | .describe => ((parseJson json reply).bind (readResult json "describe" DescribeResult.codec)).map .described
  | .getLineage .. => ((parseJson json reply).bind (readResult json "get_lineage" LineagePage.codec)).map .page
  | .catalogPull .. => ((parseJson json reply).bind (readResult json "catalog_pull" PullResult.codec)).map .pulled
  | .catalogDescribe .. => ((parseJson json reply).bind catalogTablesFromJson).map .tables
  | .dropPond _ | .materializePond | .readArrow .. => .ok .done

/-- A call of the Data service. -/
def callData {Byte : Type} (json : Json) (link : Link Byte) (peer : Peer) (pond : Text) (reply : Except Status Text) :
    Except ErrorEnvelope Text :=
  match link.dial with
  | some detail => .error (unreachableOwner peer pond detail)
  | none => (link.unary reply).mapError (statusToError json peer pond)

section

variable (arrow : Arrow S B) (json : Json) (ipc : Ipc S B arrow.hasRows) (link : Link ipc.Byte)

/-- `Forwarder::read_arrow`. -/
def callStream (peer : Peer) (pond : Text) (reply : Except Status (List (ArrowChunk ipc.Byte) × Option Status)) :
    Except ErrorEnvelope (ReadStream S B) :=
  match link.dial with
  | some detail => .error (unreachableOwner peer pond detail)
  | none => ((link.streamed reply).mapError (statusToError json peer pond)).bind (decodeArrowStream json ipc peer pond)

/-- The operation on a node that forwards it to the owner, which serves it under the trace `t`. -/
def forward (owner : Owner S B) (t g : TraceContext) (peer : Peer) (pond : Text) (op : Op) :
    Except ErrorEnvelope (Answer S B) :=
  (enter pond op).bind fun op =>
    match op with
    | .readArrow sql timeoutMs =>
      (callStream arrow json ipc link peer pond (serveStream json ipc owner t sql (some (timeoutMs.getD 0)))).map .stream
    | .readCollected sql timeoutMs =>
      ((callStream arrow json ipc link peer pond (serveStream json ipc owner t sql (some (timeoutMs.getD 0)))).bind
        (collectStream arrow g)).map .query
    | op => (callData json link peer pond (serve json owner arrow t pond op.overTheHop)).bind (readReply json op)

/-- **What a caller on the other node gets**: the owner serves under a span of its own of the trace of the request. -/
def answerForwarded (owner : Owner S B) (fresh g : TraceContext) (peer : Peer) (pond : Text) (op : Op) :
    Except ErrorEnvelope (Answer S B) :=
  answer g (forward arrow json ipc link owner (fresh.inbound (some g.traceparent)) g peer pond op)

/-- The hop carries what the owner says to an operation: the dial succeeds, the reply arrives as it was sent, the Arrow
writer takes the stream, and the reader of JSON gets back what was printed. -/
def Carries (owner : Owner S B) (t : TraceContext) (pond : Text) : Op → Prop
  | .readArrow sql timeoutMs | .readCollected sql timeoutMs =>
    let reply := serveStream json ipc owner t sql (some (timeoutMs.getD 0))
    link.dial = none ∧ link.streamed reply = reply ∧
      match owner.readArrow t sql (owner.timeouts.effective timeoutMs) with
      | .error e => json.ReadsBack (ErrorEnvelope.codec.encode (stamp t e))
      | .ok read => ipc.Writes read ∧ ∀ e, read.ended = some e → json.ReadsBack (ErrorEnvelope.codec.encode (stamp t e))
  | op =>
    let reply := serve json owner arrow t pond op.overTheHop
    link.dial = none ∧ link.unary reply = reply ∧
      match (enter pond op.overTheHop).bind (owner.perform arrow t) with
      | .error e => json.ReadsBack (ErrorEnvelope.codec.encode (stamp t e))
      | .ok a => ∀ v, valueOf op.overTheHop a = some v → json.ReadsBack v

end

/-! ### Transparency -/

/-- The operation whose answer on the owner is the answer to this one on another node: a buffered read is a collected
one there, and an empty bound is none. -/
def Op.counterpart : Op → Op
  | .read sql timeoutMs => .readCollected sql timeoutMs
  | .getLineage limit since before => .getLineage limit (nonEmpty since) (nonEmpty before)
  | op => op

/-- What a stream says of a read. -/
def ofStream (m : QueryMeta) : QueryMeta :=
  { rows := m.rows, servedBy := m.servedBy, traceId := m.traceId, traceparent := m.traceparent }

/-- What of an answer crosses the hop. -/
def crossing : Op → Answer S B → Answer S B
  | .readCollected .., .query qr => .query { qr with meta_ := ofStream qr.meta_ }
  | .read .., .query qr | .write .., .query qr => .query qr.withoutFields
  | _, a => a

/-- An answer on the owner, and on another node: they agree on what crosses the hop, apart from the span of an error. -/
def Agree (hasRows : B → Bool) : Op → Except ErrorEnvelope (Answer S B) → Except ErrorEnvelope (Answer S B) → Prop
  | .readArrow .., .ok (.stream own), fwd => ∃ r, Relayed hasRows own r ∧ fwd = r.map .stream
  | op, own, fwd => fwd.mapError spanless = (own.map (crossing op)).mapError spanless

theorem except_map_eq_ok {ε α β : Type} {f : α → β} {x : Except ε α} {b : β} :
    x.map f = .ok b ↔ ∃ a, x = .ok a ∧ f a = b := by
  cases x <;> simp [Except.map]

theorem effective_getD (timeouts : QueryTimeouts) (timeoutMs : Option ℕ) :
    timeouts.effective (some (timeoutMs.getD 0)) = timeouts.effective timeoutMs := by
  rcases timeoutMs with _ | _ | ms <;> rfl

section

variable {arrow : Arrow S B} {json : Json} {ipc : Ipc S B arrow.hasRows} {link : Link ipc.Byte} {owner : Owner S B}
  {t g : TraceContext} {peer : Peer} {pond : Text}

theorem enter_ok {op op' : Op} (h : enter pond op = .ok op') : op' = op.clamped := by
  cases op with
  | getLineage limit since before =>
    by_cases hl : limit = 0
    · simp [enter, hl] at h
    · simp only [enter, if_neg hl, Except.ok.injEq] at h
      exact h.symm
  | dropPond confirm =>
    cases confirm with
    | false => simp [enter] at h
    | true =>
      cases h
      rfl
  | _ =>
    cases h
    rfl

/-- **The owner makes of it** what it makes of the operation of a caller of its own. -/
theorem performed_eq {op : Op} (hs : op.streamed = false) :
    (enter pond op.clamped.overTheHop).bind (owner.perform arrow t) =
      (enter pond op.counterpart).bind (owner.perform arrow t) := by
  cases op with
  | readArrow sql ms | readCollected sql ms => cases hs
  | getLineage limit since before =>
    by_cases hl : limit = 0
    · simp [Op.clamped, Op.overTheHop, Op.counterpart, enter, hl]
    · have hne : min (min limit maxLimit) (2 ^ 32 - 1) ≠ 0 := by
        simp only [maxLimit]
        omega
      have hmin : min (min (min limit maxLimit) (2 ^ 32 - 1)) maxLimit = min limit maxLimit := by
        simp only [maxLimit]
        omega
      simp only [Op.clamped, Op.overTheHop, Op.counterpart, enter, if_neg hne, if_neg hl, hmin]
  | read sql ms | write sql ms =>
    simp [Op.clamped, Op.overTheHop, Op.counterpart, enter, Owner.perform, effective_getD, Except.bind]
  | _ => rfl

/-- A result that is printed and read again. -/
theorem readResult_of_readsBack {α : Type} {what : String} {c : Codec α} {a : α} (hk : c.kept = id)
    (h : json.ReadsBack (c.encode a)) :
    (parseJson json (json.print (c.encode a))).bind (readResult json what c) = .ok a := by
  simp [parseJson, h.1, readResult, Except.bind, c.decode_encode, hk]

/-- A query's result that is printed and read again. -/
theorem readQuery_of_readsBack {qr : QueryResult} (h : json.ReadsBack (queryValue qr)) :
    (parseJson json (json.print (queryValue qr))).bind (queryResultFromJson json.mismatch) = .ok qr.withoutFields := by
  simp [parseJson, h.1, Except.bind, queryResultFromJson_queryValue]

/-- **A reply is read** as the answer that it was made of. -/
theorem readReply_served {op : Op} {a : Answer S B} (hs : op.streamed = false)
    (h : (enter pond op.overTheHop).bind (owner.perform arrow t) = .ok a)
    (hread : ∀ v, valueOf op.overTheHop a = some v → json.ReadsBack v) :
    readReply json op ((valueOf op.overTheHop a).elim [] json.print) = .ok (crossing op a) := by
  cases op with
  | readArrow sql ms | readCollected sql ms => cases hs
  | read sql ms =>
    have h' : ((owner.readArrow t sql (owner.timeouts.effective (some (ms.getD 0)))).bind (collectStream arrow t)).map
      Answer.query = .ok a := h
    obtain ⟨qr, -, rfl⟩ := except_map_eq_ok.1 h'
    simp [readReply, valueOf, readQuery_of_readsBack (hread _ rfl), crossing, Except.map]
  | write sql ms =>
    have h' : (owner.write t sql (owner.timeouts.effective (some (ms.getD 0)))).map Answer.query = .ok a := h
    obtain ⟨qr, -, rfl⟩ := except_map_eq_ok.1 h'
    simp [readReply, valueOf, readQuery_of_readsBack (hread _ rfl), crossing, Except.map]
  | explain sql =>
    have h' : (owner.explain sql).map Answer.explained = .ok a := h
    obtain ⟨r, -, rfl⟩ := except_map_eq_ok.1 h'
    simp [readReply, valueOf, readResult_of_readsBack ExplainResult.codec_kept (hread _ rfl), crossing, Except.map]
  | describe =>
    have h' : owner.describe.map Answer.described = .ok a := h
    obtain ⟨d, -, rfl⟩ := except_map_eq_ok.1 h'
    simp [readReply, valueOf, readResult_of_readsBack DescribeResult.codec_kept (hread _ rfl), crossing, Except.map]
  | getLineage limit since before =>
    simp only [Op.overTheHop, enter] at h
    split at h
    · cases h
    · have h' : (owner.getLineage (min (min limit (2 ^ 32 - 1)) maxLimit) (nonEmpty since) (nonEmpty before)).map
        Answer.page = .ok a := h
      obtain ⟨p, -, rfl⟩ := except_map_eq_ok.1 h'
      simp [readReply, valueOf, readResult_of_readsBack LineagePage.codec_kept (hread _ rfl), crossing, Except.map]
  | catalogPull catalog query params =>
    have h' : (owner.catalogPull catalog query params).map Answer.pulled = .ok a := h
    obtain ⟨p, -, rfl⟩ := except_map_eq_ok.1 h'
    simp [readReply, valueOf, readResult_of_readsBack PullResult.codec_kept (hread _ rfl), crossing, Except.map]
  | catalogDescribe catalog params =>
    have h' : (owner.catalogDescribe catalog params).map Answer.tables = .ok a := h
    obtain ⟨ts, -, rfl⟩ := except_map_eq_ok.1 h'
    have hback := hread (catalogValue catalog ts) rfl
    simp [readReply, valueOf, Op.overTheHop, parseJson, hback.1, Except.bind, catalogTablesFromJson_catalogValue, crossing,
      Except.map]
  | dropPond confirm =>
    cases confirm with
    | false => cases h
    | true =>
      have h' : (owner.dropPond.map fun _ => Answer.done) = .ok a := h
      obtain ⟨u, -, rfl⟩ := except_map_eq_ok.1 h'
      rfl
  | materializePond =>
    have h' : (owner.materializePond.map fun _ => Answer.done) = .ok a := h
    obtain ⟨u, -, rfl⟩ := except_map_eq_ok.1 h'
    rfl

/-- Only a streamed read is answered with a stream. -/
theorem ne_stream_of_perform {op : Op} {a : Answer S B} (hs : ∀ sql ms, op ≠ .readArrow sql ms)
    (h : owner.perform arrow t op = .ok a) (read : ReadStream S B) : a ≠ .stream read := by
  cases op with
  | readArrow sql ms => exact absurd rfl (hs sql ms)
  | _ =>
    obtain ⟨r, -, rfl⟩ := except_map_eq_ok.1 h
    nofun

/-- At the edge, an answer that is no stream stays as it is. -/
theorem answer_ok {a : Answer S B} (h : ∀ read, a ≠ .stream read) (u : TraceContext) : answer u (.ok a) = .ok a := by
  cases a with
  | stream read => exact absurd rfl (h read)
  | _ => rfl

theorem crossing_ne_stream {op : Op} {a : Answer S B} (h : ∀ read, a ≠ .stream read) (read : ReadStream S B) :
    crossing op a ≠ .stream read := by
  unfold crossing
  split
  · nofun
  · nofun
  · nofun
  · exact h read

theorem streamed_clamped (op : Op) : op.clamped.streamed = op.streamed := by
  cases op <;> rfl

theorem crossing_clamped (op : Op) (a : Answer S B) : crossing op.clamped a = crossing op a := by
  cases op <;> rfl

/-- **A reply of the Data service** says on the other node what the owner says to a caller of its own. -/
theorem agree_data {op : Op} (hs : op.streamed = false)
    (hg : g.traceId = t.traceId) (hdial : link.dial = none)
    (hlink : link.unary (serve json owner arrow t pond op.clamped.overTheHop) =
      serve json owner arrow t pond op.clamped.overTheHop)
    (hread : match (enter pond op.clamped.overTheHop).bind (owner.perform arrow t) with
      | .error e => json.ReadsBack (ErrorEnvelope.codec.encode (stamp t e))
      | .ok a => ∀ v, valueOf op.clamped.overTheHop a = some v → json.ReadsBack v) :
    answer g ((callData json link peer pond (serve json owner arrow t pond op.clamped.overTheHop)).bind
      (readReply json op.clamped)) = (owner.answerLocal arrow t pond op.counterpart).map (crossing op) := by
  have hperformed : (enter pond op.clamped.overTheHop).bind (owner.perform arrow t) =
      (enter pond op.counterpart).bind (owner.perform arrow t) := performed_eq hs
  rw [Owner.answerLocal, ← hperformed]
  rw [callData, hdial]
  dsimp only
  rw [hlink]
  cases hx : (enter pond op.clamped.overTheHop).bind (owner.perform arrow t) with
  | error e =>
    rw [hx] at hread
    have hserve : serve json owner arrow t pond op.clamped.overTheHop = .error (toStatus json t e) := by rw [serve, hx]
    have hback := statusToError_toStatus hread peer pond
    simp [hserve, Except.mapError, hback, Except.bind, answer, stamp_stamp hg, Except.map]
  | ok a =>
    rw [hx] at hread
    have hserve : serve json owner arrow t pond op.clamped.overTheHop =
        .ok ((valueOf op.clamped.overTheHop a).elim [] json.print) := by rw [serve, hx]
    have hreply := readReply_served ((streamed_clamped op).trans hs) hx hread
    have hne : ∀ read, a ≠ .stream read := by
      cases henter : enter pond op.clamped.overTheHop with
      | error e => simp [henter, Except.bind] at hx
      | ok op' =>
        rw [henter] at hx
        refine ne_stream_of_perform (fun sql ms heq => ?_) hx
        rw [enter_ok henter] at heq
        cases op with
        | readArrow sql ms | readCollected sql ms => cases hs
        | _ => cases heq
    have hne' : ∀ read, crossing op a ≠ .stream read := crossing_ne_stream hne
    simp [hserve, Except.mapError, Except.bind, hreply, crossing_clamped, answer_ok hne, answer_ok hne', Except.map]

/-- A refusal of the Stream service crosses. -/
theorem callStream_error {sql : Text} {ms : Option ℕ} {e : ErrorEnvelope} (hdial : link.dial = none)
    (hlink : link.streamed (serveStream json ipc owner t sql ms) = serveStream json ipc owner t sql ms)
    (hown : owner.readArrow t sql (owner.timeouts.effective ms) = .error e)
    (hread : json.ReadsBack (ErrorEnvelope.codec.encode (stamp t e))) :
    callStream arrow json ipc link peer pond (serveStream json ipc owner t sql ms) = .error (stamp t e) := by
  have hserve : serveStream json ipc owner t sql ms = .error (toStatus json t e) := by rw [serveStream, hown]
  have hback := statusToError_toStatus hread peer pond
  rw [callStream, hdial]
  dsimp only
  rw [hlink, hserve]
  simp [Except.mapError, hback, Except.bind]

variable (peer pond) in
/-- A stream of the Stream service crosses. -/
theorem callStream_ok {sql : Text} {ms : Option ℕ} {read : ReadStream S B} (hdial : link.dial = none)
    (hlink : link.streamed (serveStream json ipc owner t sql ms) = serveStream json ipc owner t sql ms)
    (hown : owner.readArrow t sql (owner.timeouts.effective ms) = .ok read) (hw : ipc.Writes read)
    (hread : ∀ e, read.ended = some e → json.ReadsBack (ErrorEnvelope.codec.encode (stamp t e))) :
    Relayed arrow.hasRows (read.stamped t)
      (callStream arrow json ipc link peer pond (serveStream json ipc owner t sql ms)) := by
  have hserve : serveStream json ipc owner t sql ms = .ok (encodeToChunks json ipc t read) := by rw [serveStream, hown]
  rw [callStream, hdial]
  dsimp only
  rw [hlink, hserve]
  exact decode_encode hw hread peer pond

/-- A relayed stream is stamped already. -/
theorem answer_relayed {read : ReadStream S B} {r : Except ErrorEnvelope (ReadStream S B)} (hg : g.traceId = t.traceId)
    (h : Relayed arrow.hasRows (read.stamped t) r) : answer g (r.map .stream) = r.map .stream := by
  have hended : (read.stamped t).ended.map (stamp g) = (read.stamped t).ended := by
    cases he : read.ended <;> simp [ReadStream.stamped, he, stamp_stamp hg]
  cases h with
  | stream hsplit hlag hwhole =>
    show Except.ok (Answer.stream _) = Except.ok (Answer.stream _)
    rw [ReadStream.stamped]
    dsimp only
    rw [hended]
  | early he hrows =>
    obtain ⟨e, -, rfl⟩ := Option.map_eq_some_iff.1 he
    simp [Except.map, answer, stamp_stamp hg]

variable (arrow) in
/-- **Collecting** a stream does not depend on batches without rows at its end. -/
theorem collectRows_append (columns : List Text) (ended : Option ErrorEnvelope) {given lag : List B}
    (hlag : ∀ b ∈ lag, arrow.hasRows b = false) {rows : List (List Value)} (hrows : rows.length ≤ inlineRowCap) :
    collectRows arrow columns ended rows (given ++ lag) = collectRows arrow columns ended rows given := by
  induction given generalizing rows with
  | nil =>
    induction lag with
    | nil => rfl
    | cons b lag ih =>
      have hb := arrow.cells_rowless columns b (hlag b (List.mem_cons_self ..))
      have hrest := ih fun c hc => hlag c (List.mem_cons_of_mem _ hc)
      rw [List.nil_append] at hrest ⊢
      rw [collectRows, hb]
      simpa [Nat.not_lt.2 hrows] using hrest
  | cons b given ih =>
    rw [List.cons_append, collectRows, collectRows]
    cases arrow.cells columns b with
    | error e => rfl
    | ok more =>
      dsimp only
      split
      · rfl
      · exact ih (by omega)

variable (arrow) in
/-- Collecting a stream whose error is stamped: the same rows, or an error that differs in the span. -/
theorem collectRows_stamped (columns : List Text) (ended : Option ErrorEnvelope) (hg : g.traceId = t.traceId)
    (rows : List (List Value)) (batches : List B) :
    (collectRows arrow columns (ended.map (stamp t)) rows batches).mapError (fun e => spanless (stamp g e)) =
      (collectRows arrow columns ended rows batches).mapError (fun e => spanless (stamp t e)) := by
  induction batches generalizing rows with
  | nil => cases ended <;> simp [collectRows, Except.mapError, stamp_stamp hg]
  | cons b batches ih =>
    rw [collectRows, collectRows]
    cases arrow.cells columns b with
    | error e => simp [Except.mapError, spanless_stamp hg]
    | ok more =>
      dsimp only
      split
      · simp [Except.mapError, spanless_stamp hg]
      · exact ih _

theorem answer_query (u : TraceContext) (x : Except ErrorEnvelope QueryResult) :
    (answer u (x.map .query) : Except ErrorEnvelope (Answer S B)).mapError spanless =
      (x.mapError fun e => spanless (stamp u e)).map .query := by
  cases x <;> rfl

/-- **A collected read** on another node: the rows of the owner, under an empty meta. -/
theorem collect_agrees {read : ReadStream S B} {r : Except ErrorEnvelope (ReadStream S B)} (hg : g.traceId = t.traceId)
    (h : Relayed arrow.hasRows (read.stamped t) r) (sql : Text) (ms : Option ℕ) :
    (answer g ((r.bind (collectStream arrow g)).map .query) : Except ErrorEnvelope (Answer S B)).mapError spanless =
      ((answer t ((collectStream arrow t read).map .query)).map (crossing (.readCollected sql ms))).mapError spanless := by
  have hswap : ((answer t ((collectStream arrow t read).map .query) : Except ErrorEnvelope (Answer S B)).map
      (crossing (.readCollected sql ms))).mapError spanless =
      ((answer t ((collectStream arrow t read).map .query)).mapError spanless).map (crossing (.readCollected sql ms)) := by
    cases collectStream arrow t read <;> rfl
  rw [hswap, answer_query, answer_query]
  cases h with
  | @stream given lag hsplit hlag hwhole =>
    have hrows : collectRows arrow (arrow.columns read.schema) read.ended [] read.batches =
        collectRows arrow (arrow.columns read.schema) read.ended [] given := by
      have hbatches : read.batches = given ++ lag := hsplit.symm
      rw [hbatches]
      exact collectRows_append arrow (arrow.columns read.schema) read.ended hlag (Nat.zero_le _)
    have hstamped := collectRows_stamped arrow (arrow.columns read.schema) read.ended hg [] given
    simp only [Except.bind, collectStream, ReadStream.stamped, hrows]
    cases hown : collectRows arrow (arrow.columns read.schema) read.ended [] given with
    | error e =>
      cases hfwd : collectRows arrow (arrow.columns read.schema) (read.ended.map (stamp t)) [] given with
      | error e' =>
        rw [hown, hfwd] at hstamped
        simpa [Except.map, Except.mapError] using hstamped
      | ok rows => simp [hown, hfwd, Except.mapError] at hstamped
    | ok rows =>
      cases hfwd : collectRows arrow (arrow.columns read.schema) (read.ended.map (stamp t)) [] given with
      | error e => simp [hown, hfwd, Except.mapError] at hstamped
      | ok rows' =>
        rw [hown, hfwd] at hstamped
        cases hstamped
        simp [Except.map, Except.mapError, crossing, ofStream, hg]
  | early he hrows =>
    obtain ⟨e, hended, rfl⟩ := Option.map_eq_some_iff.1 he
    have hnone : collectRows arrow (arrow.columns read.schema) read.ended [] read.batches = .error e := by
      have hlag : collectRows arrow (arrow.columns read.schema) read.ended [] ([] ++ read.batches) =
          collectRows arrow (arrow.columns read.schema) read.ended [] [] :=
        collectRows_append arrow (arrow.columns read.schema) read.ended hrows (Nat.zero_le _)
      exact hlag.trans (by rw [hended, collectRows])
    simp [Except.bind, collectStream, hnone, Except.map, Except.mapError, stamp_stamp hg]

theorem agree_data_iff {hasRows : B → Bool} {op : Op} (hs : op.streamed = false)
    {own fwd : Except ErrorEnvelope (Answer S B)} :
    Agree hasRows op own fwd ↔ fwd.mapError spanless = (own.map (crossing op)).mapError spanless := by
  cases op with
  | readArrow sql ms => cases hs
  | _ => rfl

/-- The owner refuses what the other node refuses. -/
theorem enter_counterpart {op : Op} {e : ErrorEnvelope} (h : enter pond op = .error e) :
    enter pond op.counterpart = .error e := by
  cases op with
  | getLineage limit since before =>
    by_cases hl : limit = 0
    · simpa [enter, Op.counterpart, hl] using h
    · simp [enter, hl] at h
  | read sql ms => cases h
  | _ => exact h

theorem carries_data {op : Op} (hs : op.streamed = false) (h : Carries arrow json ipc link owner t pond op.clamped) :
    link.dial = none ∧
      link.unary (serve json owner arrow t pond op.clamped.overTheHop) =
        serve json owner arrow t pond op.clamped.overTheHop ∧
      match (enter pond op.clamped.overTheHop).bind (owner.perform arrow t) with
      | .error e => json.ReadsBack (ErrorEnvelope.codec.encode (stamp t e))
      | .ok a => ∀ v, valueOf op.clamped.overTheHop a = some v → json.ReadsBack v := by
  cases op with
  | readArrow sql ms | readCollected sql ms => cases hs
  | _ => exact h

/-- **Forwarding is transparent**, on what crosses the hop. -/
theorem forward_transparent (arrow : Arrow S B) (json : Json) (ipc : Ipc S B arrow.hasRows) (link : Link ipc.Byte)
    (owner : Owner S B) (fresh g : TraceContext) (peer : Peer) (pond : Text) (op : Op)
    (h : ∀ op', enter pond op = .ok op' →
      Carries arrow json ipc link owner (fresh.inbound (some g.traceparent)) pond op') :
    Agree arrow.hasRows op (owner.answerLocal arrow (fresh.inbound (some g.traceparent)) pond op.counterpart)
      (answerForwarded arrow json ipc link owner fresh g peer pond op) := by
  set t := fresh.inbound (some g.traceparent)
  have hg : g.traceId = t.traceId := (TraceContext.inbound_traceparent fresh g).symm
  cases hstreamed : op.streamed with
  | false =>
    rw [agree_data_iff hstreamed]
    cases henter : enter pond op with
    | error e =>
      have hown : owner.answerLocal arrow t pond op.counterpart = .error (stamp t e) := by
        rw [Owner.answerLocal, enter_counterpart henter]
        rfl
      have hfwd : answerForwarded arrow json ipc link owner fresh g peer pond op = .error (stamp g e) := by
        rw [answerForwarded, forward, henter]
        rfl
      simp [hown, hfwd, Except.mapError, Except.map, spanless_stamp hg]
    | ok op' =>
      obtain rfl := enter_ok henter
      obtain ⟨hdial, hlink, hread⟩ := carries_data hstreamed (h _ henter)
      have hfwd : answerForwarded arrow json ipc link owner fresh g peer pond op =
          answer g ((callData json link peer pond (serve json owner arrow t pond op.clamped.overTheHop)).bind
            (readReply json op.clamped)) := by
        rw [answerForwarded, forward, henter]
        cases op <;> first | rfl | cases hstreamed
      rw [hfwd, agree_data hstreamed hg hdial hlink hread]
  | true =>
    cases op with
    | readArrow sql ms =>
      obtain ⟨hdial, hlink, hread⟩ := h _ rfl
      have hown : owner.answerLocal arrow t pond (Op.readArrow sql ms).counterpart =
        answer t ((owner.readArrow t sql (owner.timeouts.effective ms)).map .stream) := rfl
      have hfwd : answerForwarded arrow json ipc link owner fresh g peer pond (.readArrow sql ms) =
        answer g ((callStream arrow json ipc link peer pond (serveStream json ipc owner t sql (some (ms.getD 0)))).map
          .stream) := rfl
      rw [hown, hfwd]
      rw [← effective_getD] at hread ⊢
      cases hr : owner.readArrow t sql (owner.timeouts.effective (some (ms.getD 0))) with
      | error e =>
        rw [hr] at hread
        rw [callStream_error hdial hlink hr hread]
        simp [Except.map, answer, Agree, Except.mapError, stamp_stamp hg]
      | ok read =>
        rw [hr] at hread
        have hrelayed := callStream_ok peer pond hdial hlink hr hread.1 hread.2
        exact ⟨_, hrelayed, answer_relayed hg hrelayed⟩
    | readCollected sql ms =>
      obtain ⟨hdial, hlink, hread⟩ := h _ rfl
      have hown : owner.answerLocal arrow t pond (Op.readCollected sql ms).counterpart =
        answer t (((owner.readArrow t sql (owner.timeouts.effective ms)).bind (collectStream arrow t)).map .query) := rfl
      have hfwd : answerForwarded arrow json ipc link owner fresh g peer pond (.readCollected sql ms) =
        answer g (((callStream arrow json ipc link peer pond (serveStream json ipc owner t sql (some (ms.getD 0)))).bind
          (collectStream arrow g)).map .query) := rfl
      rw [hown, hfwd]
      rw [← effective_getD] at hread ⊢
      cases hr : owner.readArrow t sql (owner.timeouts.effective (some (ms.getD 0))) with
      | error e =>
        rw [hr] at hread
        rw [callStream_error hdial hlink hr hread]
        simp [Except.bind, Except.map, answer, Agree, Except.mapError, stamp_stamp hg]
      | ok read =>
        rw [hr] at hread
        have hrelayed := callStream_ok peer pond hdial hlink hr hread.1 hread.2
        exact collect_agrees hg hrelayed sql ms
    | _ => cases hstreamed

end

/-! ### A hop -/

/-- What an Arrow stream is made of, where a message is sent as it is. -/
inductive Message (S B : Type) where
  | schema (s : S)
  | batch (b : B)
  | eos

/-- The next batch of the messages, with the schema that was seen. -/
def nextBatch : Option S → List (Message S B) → Except Text (Option S × Option B × List (Message S B))
  | seen, [] => .ok (seen, none, [])
  | _, .schema s :: rest => nextBatch (some s) rest
  | seen, .batch b :: rest => .ok (seen, some b, rest)
  | seen, .eos :: rest => nextBatch seen rest

/-- The stream of the messages. -/
def messages (hasRows : B → Bool) : Ipc S B hasRows where
  Byte := Message S B
  Writer := Unit
  Decoder := Option S
  tryNew s := .ok ((), [.schema s])
  write _ b := .ok ((), [.batch b])
  finish _ := some [.eos]
  new := none
  decode := nextBatch
  schema := id
  InStep s _ d lag := d = some s ∧ lag = []
  schema_inStep h := .inr h.1
  tryNew_inStep h := by
    cases h
    exact ⟨_, rfl, rfl, rfl⟩
  write_inStep := by
    rintro s w d lag b w' bytes ⟨rfl, rfl⟩ h
    cases h
    exact ⟨[b], some s, [], rfl, rfl, fun _ => rfl, rfl, rfl⟩
  finish_inStep := by
    rintro s w d lag bytes ⟨rfl, rfl⟩ h
    cases h
    exact ⟨List.cons_ne_nil _ _, some s, rfl, rfl⟩

/-- Batches of rows of JSON. -/
def jsonRows : Arrow (List Text) (List (List Value)) where
  columns := id
  cells _ b := .ok b
  hasRows b := !b.isEmpty
  cells_rowless _ b h := by
    cases b with
    | nil => rfl
    | cons row b => cases h

/-- A pull, as it is printed. -/
def pullText : Text := "\x7b\"catalog\":\"ice\",\"query\":\"SELECT 1\"\x7d".toList

/-- The printer and the reader of that pull. -/
def pullJson : Json where
  print _ := pullText
  parse t := if t = pullText then some (PullResult.codec.encode ⟨"ice".toList, "SELECT 1".toList⟩) else none
  complaint _ := "expected value".toList
  mismatch _ := "invalid type".toList

theorem pullJson_parse_print (v : Value) :
    pullJson.parse (pullJson.print v) = some (PullResult.codec.encode ⟨"ice".toList, "SELECT 1".toList⟩) := by
  simp only [pullJson, ↓reduceIte]

/-- An owner that reads one row, and pulls. -/
def oneRowOwner : Owner (List Text) (List (List Value)) where
  timeouts := ⟨30000, 300000, by decide, by decide⟩
  readQuery _ _ _ := .error (internal [])
  readArrow t _ ms :=
    .ok ⟨["x".toList], [[[.int 1]]], none, some { rows := 1, timeoutMs := ms }, "http://owner".toList, t.traceparent⟩
  write _ _ _ := .error (internal [])
  explain _ := .error (internal [])
  describe := .error (internal [])
  dropPond := .ok ()
  materializePond := .ok ()
  getLineage _ _ _ := .error (internal [])
  catalogPull catalog query _ := .ok ⟨catalog, query⟩
  catalogDescribe _ _ := .ok []

/-- A hop that loses nothing. -/
def faithful {Byte : Type} : Link Byte := ⟨none, id, id⟩

/-- A trace. -/
def aTrace : TraceContext :=
  ⟨"4bf92f3577b34da6a3ce929d0e0e4736".toList, "00f067aa0ba902b7".toList, true, by decide, by decide⟩

/-- A pull from the catalog `ice`. -/
def aPull : Op := .catalogPull "ice".toList "SELECT 1".toList []

theorem pull_forwarded :
    Agree jsonRows.hasRows aPull
      (oneRowOwner.answerLocal jsonRows (aTrace.inbound (some aTrace.traceparent)) "p".toList aPull.counterpart)
      (answerForwarded jsonRows pullJson (messages _) faithful oneRowOwner aTrace aTrace ⟨"n".toList, "http://owner".toList⟩
        "p".toList aPull) := by
  refine forward_transparent jsonRows pullJson (messages _) faithful oneRowOwner aTrace aTrace
    ⟨"n".toList, "http://owner".toList⟩ "p".toList aPull fun op' h => ?_
  cases h
  refine ⟨rfl, rfl, fun v hv => ?_⟩
  cases hv
  exact ⟨pullJson_parse_print _, List.cons_ne_nil _ _⟩

/-- The timeout that the meta of an answer reports. -/
def timeoutOf {S B : Type} : Except ErrorEnvelope (Answer S B) → Option ℕ
  | .ok (.query qr) => some qr.meta_.timeoutMs
  | _ => none

/-- A collected read on the node of the pond reports its timeout; the same read on another node reports none, where the
hop carries it. -/
theorem forwarded_read_loses_its_timeout :
    Carries jsonRows pullJson (messages _) faithful oneRowOwner (aTrace.inbound (some aTrace.traceparent)) "p".toList
        (.readCollected "SELECT 1 AS x".toList none) ∧
      timeoutOf (oneRowOwner.answerLocal jsonRows (aTrace.inbound (some aTrace.traceparent)) "p".toList
        (.readCollected "SELECT 1 AS x".toList none)) = some 30000 ∧
      timeoutOf (answerForwarded jsonRows pullJson (messages _) faithful oneRowOwner aTrace aTrace
        ⟨"n".toList, "http://owner".toList⟩ "p".toList (.readCollected "SELECT 1 AS x".toList none)) = some 0 := by
  refine ⟨⟨rfl, rfl, ⟨(), _, rfl, (), _, rfl, rfl⟩, nofun⟩, rfl, rfl⟩

end Latiq.PondNode
