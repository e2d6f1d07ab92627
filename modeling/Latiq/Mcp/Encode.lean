import Latiq.Common.Error
import Latiq.Common.Trace
import Latiq.Library.JsonCodec
import Latiq.PondNode.Wire

/-!
# Tool results

What a tool call answers with: a text block for the clients that read text, and the same value as structured content.
Both name the trace of the request, in a place of their own: a success under `_meta`, an error in its envelope.

* `dual` — the one funnel of all results; `withBodyTraceparent` and `traceMeta` name the trace.
* `ok`, `okQuery`, `errEnvelope`.

## What is proved

* `decode_withBodyTraceparent` — what is put into a body is in the way of no field of it.
* `QueryResponse.encode_stamped` — the body of a query is that of a response whose meta names the trace.
* `results_read_back` — from the text block of a result, a client reads its structured content, and from that the
  response that was made, or the envelope.
-/

namespace Latiq.Mcp

open RustStr Serde Latiq.Common
open Latiq.PondNode (QueryResult)

/-- `TRACEPARENT_META`. -/
def TRACEPARENT_META : String := "traceparent"

/-- `BODY_META`. -/
def BODY_META : String := "_meta"

/-- `CallToolResult`; all content is text. -/
structure CallToolResult where
  content : List Text
  structuredContent : Option Value
  isError : Bool
  meta_ : Option (List (String × Value))

/-- `trace_meta`, in the scope of a request or outside. -/
def traceMeta (scope : Option TraceContext) : Option (List (String × Value)) :=
  scope.map fun t => [(TRACEPARENT_META, .str t.traceparent)]

/-- `with_body_traceparent`. -/
def withBodyTraceparent (scope : Option TraceContext) (value : Value) : Value :=
  match scope, value with
  | some t, .obj map =>
    match map.lookup BODY_META with
    | some (.obj meta_) =>
      if (meta_.lookup TRACEPARENT_META).isSome then value
      else .obj (insert BODY_META (.obj (insert TRACEPARENT_META (.str t.traceparent) meta_)) map)
    | some _ => value
    | none => .obj (insert BODY_META (.obj [(TRACEPARENT_META, .str t.traceparent)]) map)
  | _, _ => value

/-- `dual`. -/
def dual (scope : Option TraceContext) (value : Value) (isError : Bool) : CallToolResult :=
  let value := if isError then value else withBodyTraceparent scope value
  ⟨[Json.print value], some value, isError, traceMeta scope⟩

/-- `ok`, for a type that is serialized by a codec. -/
def ok {α : Type} (scope : Option TraceContext) (c : Codec α) (value : α) : CallToolResult :=
  dual scope (c.encode value) false

/-- An envelope with the trace of the request: the id replaces one that is there, the `traceparent` does not. -/
def stamped (scope : Option TraceContext) (env : ErrorEnvelope) : ErrorEnvelope :=
  (env.withTraceId (scope.map (·.traceId))).withTraceparent (scope.map (·.traceparent))

/-- `err_envelope`. -/
def errEnvelope (scope : Option TraceContext) (env : ErrorEnvelope) : CallToolResult :=
  dual scope (ErrorEnvelope.codec.encode (stamped scope env)) true

/-! ### Query responses -/

/-- `QueryResponse`. -/
structure QueryResponse where
  columns : List Text
  rows : List (List Value)
  statement : Text
  status : Text
  meta_ : QueryMeta

/-- The fields of a response. -/
def QueryResponse.fields : Fields QueryResponse :=
  .of (fun r => (r.columns, r.rows, r.statement, r.status, r.meta_))
    (fun (columns, rows, statement, status, meta_) => ⟨columns, rows, statement, status, meta_⟩) <|
    (Fields.required "columns" (list text)).also <|
    (Fields.required "rows" (list (list value))).also <|
    (Fields.required "statement" text).also <|
    (Fields.required "status" text).also <|
    Fields.required "_meta" QueryMeta.codec

def QueryResponse.codec : Codec QueryResponse := fields.codec (by decide)

/-- The response to a query, as `ok_query` builds it. -/
def QueryResponse.ofResult (statement : Text) (qr : QueryResult) : QueryResponse :=
  ⟨qr.columns, qr.rows, statement, "ok".toList, qr.meta_⟩

/-- `ok_query`. -/
def okQuery (scope : Option TraceContext) (statement : Text) (qr : QueryResult) : CallToolResult :=
  ok scope QueryResponse.codec (.ofResult statement qr)

/-- A meta that names this trace, where it named none. -/
def metaStamped (scope : Option TraceContext) (m : QueryMeta) : QueryMeta :=
  match scope with
  | some t => if m.traceparent = [] then { m with traceparent := t.traceparent } else m
  | none => m

/-- A response whose meta names the trace. -/
def QueryResponse.stamped (scope : Option TraceContext) (r : QueryResponse) : QueryResponse :=
  { r with meta_ := metaStamped scope r.meta_ }

/-- A response whose datasets are without their columns. -/
def QueryResponse.withoutFields (r : QueryResponse) : QueryResponse := { r with meta_ := r.meta_.withoutFields }

@[simp] theorem QueryResponse.codec_kept : QueryResponse.codec.kept = withoutFields := by
  funext r
  simp [codec, fields, withoutFields]

/-! ### Bodies -/

theorem withBodyTraceparent_of_lookup {map meta_ : List (String × Value)} (h : map.lookup BODY_META = some (.obj meta_))
    (t : TraceContext) :
    withBodyTraceparent (some t) (.obj map) =
      if (meta_.lookup TRACEPARENT_META).isSome then .obj map
      else .obj (insert BODY_META (.obj (insert TRACEPARENT_META (.str t.traceparent) meta_)) map) := by
  simp only [withBodyTraceparent, h]

theorem withBodyTraceparent_of_lookup_none {map : List (String × Value)} (h : map.lookup BODY_META = none)
    (t : TraceContext) :
    withBodyTraceparent (some t) (.obj map) =
      .obj (insert BODY_META (.obj [(TRACEPARENT_META, .str t.traceparent)]) map) := by
  simp only [withBodyTraceparent, h]

theorem withBodyTraceparent_encode {α : Type} {f : Fields α} {h : f.names.Nodup} (hmeta : BODY_META ∉ f.names)
    (t : TraceContext) (a : α) :
    withBodyTraceparent (some t) ((f.codec h).encode a) =
      .obj (insert BODY_META (.obj [(TRACEPARENT_META, .str t.traceparent)]) (record (f.put a))) := by
  exact withBodyTraceparent_of_lookup_none (lookup_record (by rwa [f.names_put])) t

/-- **What is put into a body** is in the way of no field of it but a `_meta`. -/
theorem decode_withBodyTraceparent {α : Type} {f : Fields α} {h : f.names.Nodup} (hmeta : BODY_META ∉ f.names)
    (scope : Option TraceContext) (a : α) :
    (f.codec h).decode (withBodyTraceparent scope ((f.codec h).encode a)) = some (f.kept a) := by
  cases scope with
  | none => exact (f.codec h).decode_encode a
  | some t =>
    rw [withBodyTraceparent_encode hmeta]
    refine f.take_put a _ fun e he => ?_
    have hne : e.1 ≠ BODY_META := by
      rintro heq
      exact hmeta (by rw [← heq, ← f.names_put a]; exact List.mem_map_of_mem he)
    show (insert BODY_META _ (record (f.put a))).lookup e.1 = e.2
    rw [lookup_insert, if_neg hne]
    exact get?_record (by rwa [f.names_put]) he

/-- **A body that has no `_meta` of its own** names the trace of the request. -/
theorem get?_withBodyTraceparent {α : Type} {f : Fields α} {h : f.names.Nodup} (hmeta : BODY_META ∉ f.names)
    (t : TraceContext) (a : α) :
    ((withBodyTraceparent (some t) ((f.codec h).encode a)).get? BODY_META).bind (·.get? TRACEPARENT_META) =
      some (.str t.traceparent) := by
  rw [withBodyTraceparent_encode hmeta]
  show ((insert BODY_META _ (record (f.put a))).lookup BODY_META).bind _ = _
  rw [lookup_insert, if_pos rfl]
  rfl

/-! ### The meta of a query -/

/-- The members of a meta but its `traceparent`. -/
def metaFront (m : QueryMeta) : List (String × Option Value) :=
  (QueryMeta.fields.put { m with traceparent := [] }).dropLast

theorem put_meta (m : QueryMeta) : QueryMeta.fields.put m =
    metaFront m ++ [(TRACEPARENT_META, if m.traceparent.isEmpty then none else some (.str m.traceparent))] := rfl

theorem lookup_traceparent (m : QueryMeta) :
    (record (QueryMeta.fields.put m)).lookup TRACEPARENT_META =
      if m.traceparent.isEmpty then none else some (.str m.traceparent) :=
  get?_record (by rw [QueryMeta.fields.names_put]; decide)
    (by rw [put_meta]; exact List.mem_append_right _ (List.mem_singleton_self _))

/-- A meta that names this trace. -/
theorem encode_traceparent (m : QueryMeta) {tp : Text} (h : tp ≠ []) :
    QueryMeta.codec.encode { m with traceparent := tp } =
      .obj (insert TRACEPARENT_META (.str tp) (record (QueryMeta.fields.put m))) := by
  have hempty : tp.isEmpty = false := by simpa using h
  refine Fields.encode_eq_insert ?_ fun e he hne => ?_
  · rw [put_meta, hempty]
    exact List.mem_append_right _ (List.mem_singleton_self _)
  · rw [put_meta] at he ⊢
    rcases List.mem_append.1 he with hfront | hlast
    · exact List.mem_append_left _ hfront
    · exact absurd (congrArg Prod.fst (List.mem_singleton.1 hlast)) hne

/-- The members of a response. -/
theorem put_response (r : QueryResponse) : QueryResponse.fields.put r =
    [("columns", some ((list text).encode r.columns)), ("rows", some ((list (list value)).encode r.rows)),
      ("statement", some (.str r.statement)), ("status", some (.str r.status))] ++
      [(BODY_META, some (QueryMeta.codec.encode r.meta_))] := rfl

theorem traceparent_ne_nil (t : TraceContext) : t.traceparent ≠ [] := nofun

/-- **The body of a query's result** is that of the response whose meta names the trace. -/
theorem QueryResponse.encode_stamped (scope : Option TraceContext) (r : QueryResponse) :
    withBodyTraceparent scope (codec.encode r) = codec.encode (r.stamped scope) := by
  cases scope with
  | none => rfl
  | some t =>
    have hmeta : (codec.encode r).get? BODY_META = some (QueryMeta.codec.encode r.meta_) :=
      get?_record (by rw [QueryResponse.fields.names_put]; decide) (by rw [put_response]; simp)
    show withBodyTraceparent (some t) (.obj (record (QueryResponse.fields.put r))) = _
    rw [withBodyTraceparent_of_lookup hmeta, lookup_traceparent]
    by_cases htp : r.meta_.traceparent = []
    · rw [stamped, metaStamped, if_pos htp, htp, ← encode_traceparent r.meta_ (traceparent_ne_nil t)]
      refine (Fields.encode_eq_insert ?_ fun e he hne => ?_).symm
      · rw [put_response]
        exact List.mem_append_right _ (List.mem_singleton_self _)
      · rw [put_response] at he ⊢
        rcases List.mem_append.1 he with hfront | hlast
        · exact List.mem_append_left _ hfront
        · exact absurd (congrArg Prod.fst (List.mem_singleton.1 hlast)) hne
    · rw [stamped, metaStamped, if_neg htp, if_pos (by simpa using htp)]
      rfl

/-! ### What a client reads -/

theorem writes_datasetRef : DatasetRef.codec.Writes := by
  refine Fields.Writes.codec (.of (.also ?_ <| .also ?_ <| .also ?_ ?_) _ _) _
  · exact Fields.writes_optional _ writes_text
  · exact Fields.writes_required _ writes_text
  · exact Fields.writes_optional _ writes_signed
  · exact Fields.writes_skipped _

theorem writes_warning : Warning.codec.Writes :=
  Fields.Writes.codec
    (.of (.also (Fields.writes_required _ (writes_named _)) (Fields.writes_required _ writes_text)) _ _) _

theorem writes_queryMeta : QueryMeta.codec.Writes := by
  have htexts := writes_list writes_text
  have hdatasets := writes_list writes_datasetRef
  refine Fields.Writes.codec (.of (.also ?_ <| .also ?_ <| .also ?_ <| .also ?_ <| .also ?_ <| .also ?_ <| .also ?_ <|
    .also ?_ <| .also ?_ <| .also ?_ <| .also ?_ <| .also ?_ <| .also ?_ ?_) _ _) _
  · exact Fields.writes_required _ writes_unsigned
  · exact Fields.writes_required _ writes_unsigned
  · exact Fields.writes_optional _ writes_signed
  · exact Fields.writes_required _ writes_unsigned
  · exact Fields.writes_defaulted _ writes_unsigned
  · exact Fields.writes_required _ writes_unsigned
  · exact Fields.writes_defaulted _ htexts
  · exact Fields.writes_defaulted _ hdatasets
  · exact Fields.writes_defaulted _ hdatasets
  · exact Fields.writes_defaulted _ (writes_list writes_warning)
  · exact Fields.writes_optional _ writes_text
  · exact Fields.writes_defaulted _ writes_text
  · exact Fields.writes_defaulted _ writes_text
  · exact Fields.writes_defaulted _ writes_text

theorem written_response {r : QueryResponse} (h : ∀ row ∈ r.rows, ∀ cell ∈ row, Json.Written cell) :
    Json.Written (QueryResponse.codec.encode r) := by
  refine written_obj.2 fun e he => ?_
  have hmem := mem_of_mem_record he
  rw [put_response] at hmem
  simp only [List.cons_append, List.nil_append, List.mem_cons, Prod.mk.injEq, Option.some.injEq, List.not_mem_nil,
    or_false] at hmem
  rcases hmem with ⟨-, hv⟩ | ⟨-, hv⟩ | ⟨-, hv⟩ | ⟨-, hv⟩ | ⟨-, hv⟩ <;> rw [hv]
  · exact writes_list writes_text _
  · refine written_arr.2 fun v hv => ?_
    obtain ⟨row, hrow, rfl⟩ := List.mem_map.1 hv
    refine written_arr.2 fun v hv => ?_
    obtain ⟨cell, hcell, rfl⟩ := List.mem_map.1 hv
    exact h row hrow cell hcell
  · trivial
  · trivial
  · exact writes_queryMeta _

theorem written_withBodyTraceparent (scope : Option TraceContext) {v : Value} (h : Json.Written v) :
    Json.Written (withBodyTraceparent scope v) := by
  unfold withBodyTraceparent
  split
  · rename_i map
    split
    · rename_i meta_ hmeta
      split
      · exact h
      · refine written_insert (written_insert trivial ?_) h
        exact written_obj.1 h _ (mem_of_lookup hmeta)
    · exact h
    · exact written_insert (written_obj.2 (by simp [Json.Written])) h
  · exact h

/-- The text of a result, read. -/
def CallToolResult.read (r : CallToolResult) : Option Value :=
  match r.content with
  | [text] => Json.read text
  | _ => none

/-- **The text block and the structured content** of a result are one value. -/
theorem read_dual (scope : Option TraceContext) {value : Value} (h : Json.Written value) (isError : Bool) :
    (dual scope value isError).read = (dual scope value isError).structuredContent := by
  cases isError with
  | true => exact Json.read_print h
  | false => exact Json.read_print (written_withBodyTraceparent scope h)

/-- What is read back from a success that has no `_meta` of its own: what was made, and the trace of the request. -/
theorem ok_reads_back {α : Type} {f : Fields α} (hf : f.Writes) {h : f.names.Nodup} (hmeta : BODY_META ∉ f.names)
    (scope : Option TraceContext) (a : α) :
    ∃ v, (ok scope (f.codec h) a).read = some v ∧ (f.codec h).decode v = some (f.kept a) ∧
      (v.get? BODY_META).bind (·.get? TRACEPARENT_META) = scope.map fun t => .str t.traceparent := by
  refine ⟨_, read_dual scope (hf.codec h a) false, decode_withBodyTraceparent hmeta scope a, ?_⟩
  cases scope with
  | none =>
    have hlookup : (record (f.put a)).lookup BODY_META = none := lookup_record (by rwa [f.names_put])
    show ((record (f.put a)).lookup BODY_META).bind _ = _
    rw [hlookup]
    rfl
  | some t => exact get?_withBodyTraceparent hmeta t a

theorem put_envelope_names (e : ErrorEnvelope) : BODY_META ∉ (ErrorEnvelope.fields.put e).map Prod.fst := by
  rw [ErrorEnvelope.fields.names_put]
  decide

/-- **What a client reads back** from the text of a tool's result. From a query's it gets the columns, the rows and the
meta without the columns of its datasets; the meta names the span that ran the statement, or the request's where it
named none. From an error it gets the envelope with the trace of the request, and no `_meta`. -/
theorem results_read_back (scope : Option TraceContext) (statement : Text) (qr : QueryResult) (env : ErrorEnvelope)
    (hcells : ∀ row ∈ qr.rows, ∀ cell ∈ row, Json.Written cell) :
    ((okQuery scope statement qr).read.bind QueryResponse.codec.decode =
        some ⟨qr.columns, qr.rows, statement, "ok".toList, (metaStamped scope qr.meta_).withoutFields⟩ ∧
      (okQuery scope statement qr).read = (okQuery scope statement qr).structuredContent) ∧
    ((errEnvelope scope env).read.bind ErrorEnvelope.codec.decode = some (stamped scope env) ∧
      (errEnvelope scope env).read = (errEnvelope scope env).structuredContent ∧
      (errEnvelope scope env).read.bind (·.get? BODY_META) = none) := by
  have hquery : (okQuery scope statement qr).read = (okQuery scope statement qr).structuredContent :=
    read_dual scope (written_response hcells) false
  have herror : (errEnvelope scope env).read = (errEnvelope scope env).structuredContent :=
    read_dual scope (writes_errorEnvelope _) true
  refine ⟨⟨?_, hquery⟩, ?_, herror, ?_⟩
  · rw [hquery]
    show QueryResponse.codec.decode (withBodyTraceparent scope (QueryResponse.codec.encode _)) = _
    rw [QueryResponse.encode_stamped, Codec.decode_encode, QueryResponse.codec_kept]
    rfl
  · rw [herror]
    show ErrorEnvelope.codec.decode (ErrorEnvelope.codec.encode _) = _
    rw [Codec.decode_encode, ErrorEnvelope.codec_kept]
    rfl
  · rw [herror]
    exact lookup_record (put_envelope_names _)

theorem results_read_back_count :
    (okQuery none "read_query".toList ⟨["n".toList], [[.int 1]], {}⟩).read.bind QueryResponse.codec.decode =
      some ⟨["n".toList], [[.int 1]], "read_query".toList, "ok".toList, {}⟩ :=
  (results_read_back none "read_query".toList ⟨["n".toList], [[.int 1]], {}⟩ (.forKind .internal [])
    (by simp [Json.Written])).1.1

end Latiq.Mcp
