import Latiq.PondNode.Status
import Latiq.Common.Meta

/-!
# Streamed reads between nodes

A read leaves the owner of its pond as chunks of one Arrow IPC stream, and becomes a stream of batches again at the
node that forwarded.

* `Ipc` — the writer and the decoder of an Arrow stream, with what is documented of them: the batches come out in the
  order in which they went in, the last of them with the end of the stream at the latest.
* `encodeToChunks` and `decodeArrowStream` — the two ends of the hop.
* `Relayed` and `decode_encode` — **what comes out is what went in**: the schema, the batches, the error at the end, and
  who serves it. The meta of the read is not part of the stream. An error that comes before the first row may come in
  place of the stream, since the schema is known with the first batch at the latest.
-/

namespace Latiq.PondNode

open RustStr Serde Latiq.Common Latiq.AgentCore

/-! ### Arrow streams -/

/-- `ArrowReadStream`: the schema, the batches, and the error that ends them, if one does. -/
structure ReadStream (S B : Type) where
  schema : S
  batches : List B
  ended : Option ErrorEnvelope
  meta_ : Option QueryMeta
  servedBy : Text
  traceparent : Text

/-- The inner loop over one chunk: what the decoder gives of it, each with the schema that it knows then. Every turn
that gives a batch uses up bytes. -/
def drain {B S Byte D : Type} (decode : D → List Byte → Except Text (D × Option B × List Byte)) (schema : D → Option S) :
    ℕ → D → List Byte → List (B × Option S) × Except Text D
  | 0, d, _ => ([], .ok d)
  | turns + 1, d, buf =>
    match decode d buf with
    | .error e => ([], .error e)
    | .ok (d', none, _) => ([], .ok d')
    | .ok (d', some b, rest) =>
      if rest = [] then ([(b, schema d')], .ok d')
      else
        let (out, res) := drain decode schema turns d' rest
        ((b, schema d') :: out, res)

/-- A writer and a decoder of Arrow IPC streams.

`InStep s w d lag` — the writer has begun a stream of the schema `s`, and the decoder, that was fed what it wrote, has
still to give the batches `lag`. A batch with rows has a body, and is given when the last byte of its body is there. -/
structure Ipc (S B : Type) (hasRows : B → Bool) where
  Byte : Type
  Writer : Type
  Decoder : Type
  tryNew : S → Except Text (Writer × List Byte)
  write : Writer → B → Except Text (Writer × List Byte)
  finish : Writer → Option (List Byte)
  new : Decoder
  decode : Decoder → List Byte → Except Text (Decoder × Option B × List Byte)
  schema : Decoder → Option S
  InStep : S → Writer → Decoder → List B → Prop
  schema_inStep : ∀ {s w d lag}, InStep s w d lag → schema d = none ∨ schema d = some s
  tryNew_inStep : ∀ {s w bytes}, tryNew s = .ok (w, bytes) →
    ∃ d, drain decode schema (bytes.length + 1) new bytes = ([], .ok d) ∧ InStep s w d []
  write_inStep : ∀ {s w d lag b w' bytes}, InStep s w d lag → write w b = .ok (w', bytes) →
    ∃ out d' lag', drain decode schema (bytes.length + 1) d bytes = (out.map fun b => (b, some s), .ok d') ∧
      out ++ lag' = lag ++ [b] ∧ (hasRows b = true → lag' = []) ∧ InStep s w' d' lag'
  finish_inStep : ∀ {s w d lag bytes}, InStep s w d lag → finish w = some bytes → bytes ≠ [] ∧
    ∃ d', drain decode schema (bytes.length + 1) d bytes = (lag.map fun b => (b, some s), .ok d') ∧ schema d' = some s

variable {S B : Type} {hasRows : B → Bool} (json : Json) (ipc : Ipc S B hasRows)

/-! ### The owner's end -/

/-- `ArrowChunk`. -/
structure ArrowChunk (Byte : Type) where
  ipc : List Byte
  servedBy : Text
  traceparent : Text

/-- `ipc_status`. -/
def ipcStatus (e : Text) : Status := ⟨.internal, "arrow ipc encode: ".toList ++ e, []⟩

/-- The batches of a stream as chunks, and the status that ends them, if one does. -/
def encodeBatches (t : TraceContext) (ended : Option ErrorEnvelope) :
    ipc.Writer → List B → List (ArrowChunk ipc.Byte) × Option Status
  | w, [] =>
    match ended with
    | some e => ([], some (toStatus json t e))
    | none =>
      match ipc.finish w with
      | some [] | none => ([], none)
      | some tail => ([⟨tail, [], []⟩], none)
  | w, b :: batches =>
    match ipc.write w b with
    | .error e => ([], some (ipcStatus e))
    | .ok (w', bytes) =>
      let (chunks, status) := encodeBatches t ended w' batches
      (⟨bytes, [], []⟩ :: chunks, status)

/-- `encode_to_chunks`: who serves the read is on the first chunk, beside the schema. -/
def encodeToChunks (t : TraceContext) (read : ReadStream S B) : List (ArrowChunk ipc.Byte) × Option Status :=
  match ipc.tryNew read.schema with
  | .error e => ([], some (ipcStatus e))
  | .ok (w, bytes) =>
    let (chunks, status) := encodeBatches json ipc t read.ended w read.batches
    (⟨bytes, read.servedBy, read.traceparent⟩ :: chunks, status)

/-! ### The other end -/

/-- What is known of a stream that is being received. -/
structure Intake (S B D : Type) where
  decoder : D
  /-- The schema, with who serves the read, once it was delivered. -/
  served : Option (S × Text × Text)
  batches : List B
  servedBy : Text
  traceparent : Text

/-- `deliver_schema`. -/
def Intake.deliver {D : Type} (st : Intake S B D) (schema : Option S) : Intake S B D :=
  if st.served.isNone then { st with served := schema.map fun sc => (sc, st.servedBy, st.traceparent) } else st

/-- A batch is given, after the schema that is known with it. -/
def Intake.give {D : Type} (st : Intake S B D) (out : B × Option S) : Intake S B D :=
  let st := st.deliver out.2
  { st with batches := st.batches ++ [out.1] }

/-- What a chunk says of who serves the read. -/
def Intake.hear {D Byte : Type} (st : Intake S B D) (chunk : ArrowChunk Byte) : Intake S B D :=
  { st with
    servedBy := if chunk.servedBy ≠ [] then chunk.servedBy else st.servedBy
    traceparent := if chunk.traceparent ≠ [] then chunk.traceparent else st.traceparent }

/-- The stream that a caller has been handed, when it ends; an error before the schema is all that the caller gets. -/
def Intake.close {D : Type} (st : Intake S B D) (ended : Option ErrorEnvelope) : Except ErrorEnvelope (ReadStream S B) :=
  match st.served, ended with
  | some (schema, servedBy, traceparent), ended => .ok ⟨schema, st.batches, ended, none, servedBy, traceparent⟩
  | none, some e => .error e
  | none, none => .error (internal "forward arrow: no schema".toList)

/-- `decode_arrow_stream`, from a state. -/
def decodeFrom (peer : Peer) (pond : Text) (status : Option Status) :
    Intake S B ipc.Decoder → List (ArrowChunk ipc.Byte) → Except ErrorEnvelope (ReadStream S B)
  | st, [] =>
    match status with
    | none => (st.deliver (ipc.schema st.decoder)).close none
    | some s => st.close (some (statusToError json peer pond s))
  | st, chunk :: chunks =>
    let st := st.hear chunk
    let (out, res) := drain ipc.decode ipc.schema (chunk.ipc.length + 1) st.decoder chunk.ipc
    let st := out.foldl Intake.give st
    match res with
    | .error e => st.close (some (internal ("forward arrow decode: ".toList ++ e)))
    | .ok d => decodeFrom peer pond status ({ st with decoder := d }.deliver (ipc.schema d)) chunks

/-- `decode_arrow_stream`. -/
def decodeArrowStream (peer : Peer) (pond : Text) (sent : List (ArrowChunk ipc.Byte) × Option Status) :
    Except ErrorEnvelope (ReadStream S B) :=
  decodeFrom json ipc peer pond sent.2 ⟨ipc.new, none, [], [], []⟩ sent.1

/-! ### From one end to the other -/

/-- The writer takes the batches, and ends the stream. -/
def Ipc.WritesFrom : ipc.Writer → List B → Prop
  | w, [] => (ipc.finish w).isSome
  | w, b :: batches => ∃ w' bytes, ipc.write w b = .ok (w', bytes) ∧ Ipc.WritesFrom w' batches

/-- The writer takes a stream. -/
def Ipc.Writes (read : ReadStream S B) : Prop :=
  ∃ w bytes, ipc.tryNew read.schema = .ok (w, bytes) ∧ ipc.WritesFrom w read.batches

/-- A stream whose error is stamped at the edge of a node. -/
def ReadStream.stamped (t : TraceContext) (read : ReadStream S B) : ReadStream S B :=
  { read with ended := read.ended.map (stamp t) }

/-- What a caller gets of a stream by another node. -/
inductive Relayed (hasRows : B → Bool) (own : ReadStream S B) : Except ErrorEnvelope (ReadStream S B) → Prop where
  /-- The stream without its meta; before an error, batches without rows may be missing at the end. -/
  | stream {given lag : List B} : given ++ lag = own.batches → (∀ b ∈ lag, hasRows b = false) →
    (own.ended = none → lag = []) → Relayed hasRows own (.ok { own with batches := given, meta_ := none })
  /-- The error alone, where no row came before it. -/
  | early {e : ErrorEnvelope} : own.ended = some e → (∀ b ∈ own.batches, hasRows b = false) →
    Relayed hasRows own (.error e)

variable {json ipc}

/-- What a node that receives a stream has given of it. -/
structure Intake.Tells {D : Type} (st : Intake S B D) (own : ReadStream S B) (given : List B) : Prop where
  servedBy : st.servedBy = own.servedBy
  traceparent : st.traceparent = own.traceparent
  batches : st.batches = given
  served : st.served = none ∧ given = [] ∨ st.served = some (own.schema, own.servedBy, own.traceparent)

theorem Intake.Tells.deliver {D : Type} {st : Intake S B D} {own : ReadStream S B} {given : List B}
    (h : st.Tells own given) {schema : Option S} (hs : schema = none ∨ schema = some own.schema) :
    (st.deliver schema).Tells own given := by
  obtain ⟨hby, htp, hbatches, hserved⟩ := h
  rcases hserved with ⟨hnone, hnil⟩ | hsome
  · rcases hs with rfl | rfl
    · exact ⟨by simpa [Intake.deliver, hnone], by simpa [Intake.deliver, hnone], by simpa [Intake.deliver, hnone],
        .inl ⟨by simp [Intake.deliver, hnone], hnil⟩⟩
    · exact ⟨by simpa [Intake.deliver, hnone], by simpa [Intake.deliver, hnone], by simpa [Intake.deliver, hnone],
        .inr (by simp [Intake.deliver, hnone, hby, htp])⟩
  · have hsame : st.deliver schema = st := by simp [Intake.deliver, hsome]
    rw [hsame]
    exact ⟨hby, htp, hbatches, .inr hsome⟩

theorem Intake.deliver_served {D : Type} {st : Intake S B D} {own : ReadStream S B} {given : List B}
    (h : st.Tells own given) : (st.deliver (some own.schema)).served = some (own.schema, own.servedBy, own.traceparent) := by
  rcases h.served with ⟨hnone, -⟩ | hsome
  · simp [Intake.deliver, hnone, h.servedBy, h.traceparent]
  · simp [Intake.deliver, hsome]

theorem Intake.Tells.give {D : Type} {st : Intake S B D} {own : ReadStream S B} {given : List B} (h : st.Tells own given)
    (b : B) : (st.give (b, some own.schema)).Tells own (given ++ [b]) := by
  have hd := h.deliver (.inr rfl)
  exact ⟨hd.servedBy, hd.traceparent, congrArg (· ++ [b]) hd.batches, .inr (Intake.deliver_served h)⟩

theorem Intake.Tells.giveAll {D : Type} {own : ReadStream S B} (out : List B) {st : Intake S B D} {given : List B}
    (h : st.Tells own given) :
    ((out.map fun b => (b, some own.schema)).foldl Intake.give st).Tells own (given ++ out) := by
  induction out generalizing st given with
  | nil => simpa using h
  | cons b out ih =>
    have hrest := ih (h.give b)
    rwa [List.append_assoc] at hrest

variable (json) in
/-- **One chunk**: the batches that the decoder gives of it are given on. -/
theorem decodeFrom_chunk (peer : Peer) (pond : Text) (status : Option Status) {own : ReadStream S B} {given out : List B}
    {st : Intake S B ipc.Decoder} (chunk : ArrowChunk ipc.Byte) {d : ipc.Decoder} (hst : (st.hear chunk).Tells own given)
    (hdrain : drain ipc.decode ipc.schema (chunk.ipc.length + 1) st.decoder chunk.ipc =
      (out.map fun b => (b, some own.schema), .ok d))
    (hs : ipc.schema d = none ∨ ipc.schema d = some own.schema) :
    ∃ st' : Intake S B ipc.Decoder, st'.Tells own (given ++ out) ∧ st'.decoder = d ∧
      (ipc.schema d = some own.schema → st'.served = some (own.schema, own.servedBy, own.traceparent)) ∧
      ∀ chunks, decodeFrom json ipc peer pond status st (chunk :: chunks) = decodeFrom json ipc peer pond status st' chunks := by
  have hall := hst.giveAll out
  have hmoved : Intake.Tells { (out.map fun b => (b, some own.schema)).foldl Intake.give (st.hear chunk) with
      decoder := d } own (given ++ out) := ⟨hall.servedBy, hall.traceparent, hall.batches, hall.served⟩
  refine ⟨_, hmoved.deliver hs, ?_, ?_, fun chunks => ?_⟩
  · unfold Intake.deliver
    split <;> rfl
  · intro hsome
    rw [hsome]
    exact Intake.deliver_served hmoved
  · have hdec : (st.hear chunk).decoder = st.decoder := rfl
    rw [decodeFrom, hdec, hdrain]

/-- **The batches and the end** of a stream, from any state on. -/
theorem decodeFrom_encodeBatches (peer : Peer) (pond : Text) {own : ReadStream S B} {t : TraceContext}
    {ended : Option ErrorEnvelope} (hended : own.ended = ended.map (stamp t))
    (hread : ∀ e, ended = some e → json.ReadsBack (ErrorEnvelope.codec.encode (stamp t e))) {w : ipc.Writer}
    {batches given lag : List B} {st : Intake S B ipc.Decoder} (hst : st.Tells own given)
    (hstep : ipc.InStep own.schema w st.decoder lag) (hlag : ∀ b ∈ lag, hasRows b = false)
    (hall : given ++ (lag ++ batches) = own.batches) (hw : ipc.WritesFrom w batches) :
    Relayed hasRows own (decodeFrom json ipc peer pond (encodeBatches json ipc t ended w batches).2 st
      (encodeBatches json ipc t ended w batches).1) := by
  induction batches generalizing w given lag st with
  | nil =>
    rw [List.append_nil] at hall
    cases ended with
    | some e =>
      have hback := statusToError_toStatus (hread e rfl) peer pond
      simp only [encodeBatches, decodeFrom, hback]
      rcases hst.served with ⟨hnone, hnil⟩ | hsome
      · have hclose : st.close (some (stamp t e)) = .error (stamp t e) := by simp [Intake.close, hnone]
        rw [hclose]
        refine .early hended fun b hb => hlag b ?_
        rwa [← hall, hnil, List.nil_append] at hb
      · have hclose : st.close (some (stamp t e)) = .ok { own with batches := given, meta_ := none } := by
          simp [Intake.close, hsome, hst.batches, hended]
        rw [hclose]
        exact .stream hall hlag fun hn => by simp [hn] at hended
    | none =>
      obtain ⟨tail, htail⟩ := Option.isSome_iff_exists.1 hw
      obtain ⟨hne, d, hdrain, hschema⟩ := ipc.finish_inStep hstep htail
      obtain ⟨st', hst', -, hserved, hchunk⟩ :=
        decodeFrom_chunk json peer pond none ⟨tail, [], []⟩ hst hdrain (.inr hschema)
      have hencode : encodeBatches json ipc t none w [] = ([⟨tail, [], []⟩], none) := by
        cases tail with
        | nil => exact absurd rfl hne
        | cons c tail => simp [encodeBatches, htail]
      have hsame : st'.deliver (ipc.schema st'.decoder) = st' := by simp [Intake.deliver, hserved hschema]
      have hclose : st'.close none = .ok { own with batches := given ++ lag, meta_ := none } := by
        simp [Intake.close, hserved hschema, hst'.batches, hended]
      rw [hencode, hchunk, decodeFrom, hsame, hclose]
      exact .stream (by rw [List.append_nil, hall]) (List.forall_mem_nil _) fun _ => rfl
  | cons b batches ih =>
    obtain ⟨w', bytes, hwrite, hrest⟩ := hw
    obtain ⟨out, d, lag', hdrain, hsplit, hfull, hnext⟩ := ipc.write_inStep hstep hwrite
    obtain ⟨st', hst', hdec, -, hchunk⟩ := decodeFrom_chunk json peer pond
      (encodeBatches json ipc t ended w (b :: batches)).2 ⟨bytes, [], []⟩ hst hdrain (ipc.schema_inStep hnext)
    have hencode : (encodeBatches json ipc t ended w (b :: batches)).1 =
        ⟨bytes, [], []⟩ :: (encodeBatches json ipc t ended w' batches).1 := by rw [encodeBatches, hwrite]
    have hstatus : (encodeBatches json ipc t ended w (b :: batches)).2 = (encodeBatches json ipc t ended w' batches).2 := by
      rw [encodeBatches, hwrite]
    rw [hencode, hchunk, hstatus]
    have hlag' : ∀ c ∈ lag', hasRows c = false := by
      intro c hc
      rcases hb : hasRows b with _ | _
      · have hmem : c ∈ lag ++ [b] := hsplit ▸ List.mem_append_right _ hc
        rcases List.mem_append.1 hmem with hmem | hmem
        · exact hlag c hmem
        · rw [List.mem_singleton.1 hmem, hb]
      · rw [hfull hb] at hc
        exact absurd hc List.not_mem_nil
    refine ih hst' (hdec ▸ hnext) hlag' ?_ hrest
    rw [← hall, List.append_assoc, ← List.append_assoc out, hsplit]
    simp

/-- **A stream crosses**: what is decoded is what was encoded. -/
theorem decode_encode {read : ReadStream S B} {t : TraceContext} (hw : ipc.Writes read)
    (hread : ∀ e, read.ended = some e → json.ReadsBack (ErrorEnvelope.codec.encode (stamp t e))) (peer : Peer)
    (pond : Text) :
    Relayed hasRows (read.stamped t) (decodeArrowStream json ipc peer pond (encodeToChunks json ipc t read)) := by
  obtain ⟨w, bytes, hnew, hwrites⟩ := hw
  obtain ⟨d, hdrain, hstep⟩ := ipc.tryNew_inStep hnew
  have hfirst : (Intake.hear ⟨ipc.new, none, [], [], []⟩ (⟨bytes, read.servedBy, read.traceparent⟩ : ArrowChunk ipc.Byte)).Tells
      (read.stamped t) [] := by
    refine ⟨?_, ?_, rfl, .inl ⟨rfl, rfl⟩⟩
    · by_cases h : read.servedBy = [] <;> simp [Intake.hear, ReadStream.stamped, h]
    · by_cases h : read.traceparent = [] <;> simp [Intake.hear, ReadStream.stamped, h]
  have hnothing : drain ipc.decode ipc.schema (bytes.length + 1) ipc.new bytes =
      (([] : List B).map fun b => (b, some (read.stamped t).schema), .ok d) := hdrain
  obtain ⟨st', hst', hdec, -, hchunk⟩ := decodeFrom_chunk json peer pond
    (encodeBatches json ipc t read.ended w read.batches).2 ⟨bytes, read.servedBy, read.traceparent⟩ hfirst hnothing
    (ipc.schema_inStep hstep)
  have hencode : encodeToChunks json ipc t read =
      (⟨bytes, read.servedBy, read.traceparent⟩ :: (encodeBatches json ipc t read.ended w read.batches).1,
        (encodeBatches json ipc t read.ended w read.batches).2) := by rw [encodeToChunks, hnew]
  rw [decodeArrowStream, hencode]
  dsimp only
  rw [hchunk]
  exact decodeFrom_encodeBatches peer pond rfl hread hst' (hdec ▸ hstep) (List.forall_mem_nil _) rfl hwrites

end Latiq.PondNode
