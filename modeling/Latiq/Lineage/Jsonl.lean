import Latiq.Library.JsonLines
import Latiq.Lineage.Event
import Latiq.Lineage.Reader

/-!
# The lines of a trail

How an event is serialized, and what the reader makes of such a line. The members of an event are written in the order in
which the source declares them, those of a facet by their keys; empty facets, inputs and outputs are left out.

* `RunEvent.members`, `toJson` — an event as it is serialized.
* `jsonLines` — a reader whose lines are JSON, whatever it takes for a timestamp.
* `RunEvent.asRead` — an event as a reader holds it.
* `RunEvent.Writable` — the events whose numbers are numbers.

## What is proved

* `toJson_line` — an event is one line, and an event of its time is read back from it.
* `toJson_asRead` — of an event that can be written, all of it is read back.
* `writable_stamp`, `RunEvent.writable` — which events can be written.
-/

namespace Latiq.Lineage

open RustStr (Text trim)
open Serde (Value)
open Json (Written held settled fromLine)

/-! ### As it is serialized -/

/-- `SCHEMA_URL`. -/
def schemaUrl : String := "https://openlineage.io/spec/2-0-2/OpenLineage.json#/$defs/RunEvent"

/-- The names of `EventType`, in `SCREAMING_SNAKE_CASE`. -/
def EventType.asStr : EventType → String
  | start => "START"
  | running => "RUNNING"
  | complete => "COMPLETE"
  | abort => "ABORT"
  | fail => "FAIL"
  | other => "OTHER"

/-- The member `facets`, unless there are none. -/
def Facets.members (fs : Facets) : List (String × Value) := if fs.isEmpty then [] else [("facets", .obj fs)]

def Run.json (r : Run) : Value := .obj (("runId", .str r.runId) :: r.facets.members)

def Job.json (j : Job) : Value := .obj (("namespace", .str j.ns) :: ("name", .str j.name) :: j.facets.members)

def Dataset.json (d : Dataset) : Value := .obj (("namespace", .str d.ns) :: ("name", .str d.name) :: d.facets.members)

/-- A member with datasets, unless there are none. -/
def datasetMembers (name : String) (ds : List Dataset) : List (String × Value) :=
  if ds.isEmpty then [] else [(name, .arr (ds.map Dataset.json))]

namespace RunEvent

/-- The members that every event has. -/
def required (e : RunEvent) : List (String × Value) :=
  [("eventTime", .str e.eventTime), ("producer", text producer), ("schemaURL", text schemaUrl),
    ("eventType", text e.eventType.asStr), ("run", e.run.json), ("job", e.job.json)]

/-- `Serialize`: the members, in the order in which they are written. -/
def members (e : RunEvent) : List (String × Value) :=
  e.required ++ (datasetMembers "inputs" e.inputs ++ datasetMembers "outputs" e.outputs)

/-- The numbers in the event are numbers. -/
def Writable (e : RunEvent) : Prop := Written (.obj e.members)

/-- The event as a reader holds it. -/
def asRead (e : RunEvent) : Value := held (.obj e.members)

end RunEvent

/-- `serde_json::to_string` of an event. -/
def toJson (e : RunEvent) : Option Text := some (Json.print (settled (.obj e.members)))

/-- The reader, with what it takes for a timestamp. -/
def jsonLines {τ : Type} (parse : Text → Option τ) : Decoder τ := ⟨fromLine, parse⟩

/-! ### As it is read -/

theorem toJson_of_writable {e : RunEvent} (h : e.Writable) : toJson e = some (Json.print (.obj e.members)) := by
  rw [toJson, Json.settled_of_written _ h]

/-- No member is written twice. -/
theorem RunEvent.nodup_members (e : RunEvent) : (e.members.map Prod.fst).Nodup := by
  obtain ⟨time, type, run, job, inputs, outputs⟩ := e
  cases inputs <;> cases outputs <;>
    simp [RunEvent.members, RunEvent.required, datasetMembers]

theorem eventTime_held {m : List (String × Value)} (hm : (m.map Prod.fst).Nodup) {t : Text}
    (ht : ("eventTime", .str t) ∈ m) : eventTime (held (.obj m)) = some t := by
  unfold eventTime
  rw [Json.get?_held hm ht]
  rfl

theorem settledMembers_eq (m : List (String × Value)) : Json.settledMembers m = m.map fun e => (e.1, settled e.2) := by
  induction m with
  | nil => rfl
  | cons e m ih => rw [Json.settledMembers, ih, List.map_cons]

/-- A text that is a line of a file, as it is. -/
structure IsLine (text : Text) : Prop where
  nonempty : text ≠ []
  trimmed : trim text = text
  no_feed : '\n' ∉ text
  no_return : text.getLast? ≠ some '\r'

/-- An object is printed on one line. -/
theorem isLine_print_obj {m : List (String × Value)} (h : Written (.obj m)) : IsLine (Json.print (.obj m)) where
  nonempty := by
    obtain ⟨t, ht⟩ := Json.print_obj_eq m
    rw [ht]
    exact List.cons_ne_nil _ _
  trimmed := Json.trim_print_obj m
  no_feed hmem := absurd (Json.plain_print _ h '\n' hmem) (by decide)
  no_return hlast := absurd (Json.plain_print _ h '\r' (List.mem_of_getLast? hlast)) (by decide)

/-- **An event is one line**, which is read back as an event of the same time. -/
theorem toJson_line (e : RunEvent) :
    ∃ text v, toJson e = some text ∧ IsLine text ∧ fromLine text = some v ∧ eventTime v = some e.eventTime := by
  have hw := Json.written_settled (.obj e.members)
  refine ⟨_, _, rfl, isLine_print_obj hw, Json.fromLine_print hw, ?_⟩
  refine eventTime_held ?_ ?_
  · rw [settledMembers_eq, List.map_map]
    exact e.nodup_members
  · rw [settledMembers_eq]
    exact List.mem_map.2 ⟨("eventTime", .str e.eventTime), List.mem_append_left _ List.mem_cons_self, rfl⟩

/-- **An event that can be written** is one line, which is read back as all of it. -/
theorem toJson_asRead {e : RunEvent} (h : e.Writable) :
    ∃ text, toJson e = some text ∧ IsLine text ∧ fromLine text = some e.asRead :=
  ⟨_, toJson_of_writable h, isLine_print_obj h, Json.fromLine_print h⟩

/-! ### Events that can be written -/

/-- A facet whose numbers are numbers. -/
def Facet.Writable (f : Facet) : Prop := Written f.body

/-- The numbers in facets are numbers. -/
def Facets.Writable (fs : Facets) : Prop := ∀ e ∈ fs, Written e.2

theorem Facets.Writable.with {fs : Facets} (h : fs.Writable) {f : Facet} (hf : f.Writable) : (fs.with f).Writable := by
  intro e he
  rcases Serde.mem_of_mem_insert he with rfl | he
  · exact hf
  · exact h e he

/-- A facet of values that can be written. -/
theorem writable_stamp {key schemaUrl : String} {body : List (String × Value)} (h : ∀ e ∈ body, Written e.2) :
    (Facet.stamp key schemaUrl body).Writable := by
  refine Serde.written_insert trivial (Serde.written_insert trivial (Serde.written_obj.2 fun e he => h e ?_))
  exact Serde.collect_subset body he

namespace Facet

theorem written_nullable (s : Option Text) : Written (nullable s) := by
  cases s <;> trivial

theorem writable_sql (query : Text) : (sql query).Writable := by
  refine writable_stamp ?_
  simp only [List.forall_mem_cons]
  exact ⟨trivial, trivial, fun _ h => nomatch h⟩

theorem writable_datasetVersion (snapshotId : ℤ) : (datasetVersion snapshotId).Writable := by
  refine writable_stamp ?_
  simp only [List.forall_mem_cons]
  exact ⟨trivial, fun _ h => nomatch h⟩

theorem writable_schema (fields : List (Text × Text)) : (schema fields).Writable := by
  refine writable_stamp ?_
  simp only [List.forall_mem_cons]
  refine ⟨Serde.written_arr.2 fun v hv => ?_, fun _ h => nomatch h⟩
  obtain ⟨f, -, rfl⟩ := List.mem_map.1 hv
  refine Serde.written_obj.2 fun e he => ?_
  have hmem := Serde.collect_subset _ he
  simp only [List.mem_cons, List.not_mem_nil, or_false] at hmem
  rcases hmem with rfl | rfl <;> trivial

theorem writable_errorMessage (message : Text) : (errorMessage message).Writable := by
  refine writable_stamp ?_
  simp only [List.forall_mem_cons]
  exact ⟨trivial, trivial, fun _ h => nomatch h⟩

theorem writable_jobType (type : String) : (jobType type).Writable := by
  refine writable_stamp ?_
  simp only [List.forall_mem_cons]
  exact ⟨trivial, trivial, trivial, fun _ h => nomatch h⟩

theorem writable_processingEngine (duckdbVersion : Text) : (processingEngine duckdbVersion).Writable := by
  refine writable_stamp ?_
  simp only [List.forall_mem_cons]
  exact ⟨trivial, trivial, trivial, fun _ h => nomatch h⟩

theorem writable_identity (verified : Bool) (subject : Text) (issuer agentId : Option Text) :
    (identity verified subject issuer agentId).Writable := by
  refine writable_stamp ?_
  simp only [List.forall_mem_cons]
  refine ⟨trivial, ?_, written_nullable _, written_nullable _, trivial, fun _ h => nomatch h⟩
  cases verified <;> trivial

theorem writable_pond (pondId pondName nodeId : Text) : (pond pondId pondName nodeId).Writable := by
  refine writable_stamp ?_
  simp only [List.forall_mem_cons]
  exact ⟨trivial, trivial, trivial, fun _ h => nomatch h⟩

theorem writable_query (op : String) (outcome : Outcome) (durationMs : ℕ) (meaning : DurationMeaning)
    (traceId : Option Text) : (query op outcome durationMs meaning traceId).Writable := by
  refine writable_stamp ?_
  simp only [List.forall_mem_cons]
  exact ⟨trivial, trivial, trivial, trivial, written_nullable _, fun _ h => nomatch h⟩

end Facet

theorem Facets.Writable.members {fs : Facets} (h : fs.Writable) : ∀ e ∈ fs.members, Written e.2 := by
  unfold Facets.members
  split_ifs
  · exact List.forall_mem_nil _
  · intro e he
    rw [List.mem_singleton.1 he]
    exact Serde.written_obj.2 h

theorem Run.written {r : Run} (h : r.facets.Writable) : Written r.json :=
  Serde.written_obj.2 (List.forall_mem_cons.2 ⟨trivial, h.members⟩)

theorem Job.written {j : Job} (h : j.facets.Writable) : Written j.json :=
  Serde.written_obj.2 (List.forall_mem_cons.2 ⟨trivial, List.forall_mem_cons.2 ⟨trivial, h.members⟩⟩)

theorem Dataset.written {d : Dataset} (h : d.facets.Writable) : Written d.json :=
  Serde.written_obj.2 (List.forall_mem_cons.2 ⟨trivial, List.forall_mem_cons.2 ⟨trivial, h.members⟩⟩)

theorem written_datasetMembers (name : String) {ds : List Dataset} (h : ∀ d ∈ ds, d.facets.Writable) :
    ∀ e ∈ datasetMembers name ds, Written e.2 := by
  unfold datasetMembers
  split_ifs
  · exact List.forall_mem_nil _
  · intro e he
    rw [List.mem_singleton.1 he]
    refine Serde.written_arr.2 fun v hv => ?_
    obtain ⟨d, hd, rfl⟩ := List.mem_map.1 hv
    exact Dataset.written (h d hd)

/-- An event whose facets can be written. -/
theorem RunEvent.writable {e : RunEvent} (hrun : e.run.facets.Writable) (hjob : e.job.facets.Writable)
    (hin : ∀ d ∈ e.inputs, d.facets.Writable) (hout : ∀ d ∈ e.outputs, d.facets.Writable) : e.Writable := by
  refine Serde.written_obj.2 fun m hm => ?_
  rcases List.mem_append.1 hm with hm | hm
  · have hall : ∀ m ∈ e.required, Written m.2 := by
      simp only [RunEvent.required, List.forall_mem_cons]
      exact ⟨trivial, trivial, trivial, trivial, Run.written hrun, Job.written hjob, fun _ h => nomatch h⟩
    exact hall m hm
  · rcases List.mem_append.1 hm with hm | hm
    · exact written_datasetMembers "inputs" hin m hm
    · exact written_datasetMembers "outputs" hout m hm

end Latiq.Lineage
